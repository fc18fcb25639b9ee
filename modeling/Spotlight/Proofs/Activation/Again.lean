import Spotlight.Proofs.Activation.Basic

/-!
# Activating twice

A successful activation turns the marker into a line comment, and a second one with the same options is
to find no disabled region any more. It does find one where the marker comes back: the fresh comment of
the rewritten region opens with the bytes `/*`, and what stands behind them may go on like the marker.

* `Literal.le_of_find?` — the search stops at the first occurrence of a literal that starts in ASCII;
* `Bytes.infix_append_cons_iff` — a literal does not go over a byte that is not in it;
* `Activation.Unrepeated` — the marker stands at the start of a line, the group ends its line, and the
  text of the marker behind its `/*` does not occur again;
* `Activation.regionNotFound_of_unrepeated` — then a second activation finds no region;
* `Activation.bare_marker_comes_back` — a marker that is nothing but `/*` is found again.
-/

namespace Spotlight

open Bytes

/-! ### Occurrences of a literal -/

/-- A literal that lacks the byte `b` lies on one side of it. -/
theorem Bytes.infix_append_cons_iff {lit s t : Bytes} {b : UInt8} (hb : b ∉ lit) :
    lit <:+: s ++ b :: t ↔ lit <:+: s ∨ lit <:+: t := by
  constructor
  · rintro ⟨x, y, h⟩
    rw [List.append_assoc] at h
    rcases List.append_eq_append_iff.1 h with ⟨s', rfl, hlit⟩ | ⟨x', rfl, hrest⟩
    · rcases List.append_eq_append_iff.1 hlit with ⟨z, rfl, -⟩ | ⟨z, rfl, hz⟩
      · exact Or.inl ⟨x, z, by rw [List.append_assoc]⟩
      · cases z with
        | nil => exact Or.inl ⟨x, [], by simp⟩
        | cons c z =>
          obtain rfl : b = c := (List.cons.inj hz).1
          exact absurd (List.mem_append_right s' List.mem_cons_self) hb
    · cases x' with
      | nil =>
        cases lit with
        | nil => exact Or.inl List.nil_infix
        | cons c lit =>
          obtain rfl : b = c := (List.cons.inj hrest).1
          exact absurd List.mem_cons_self hb
      | cons c x' =>
        obtain rfl : t = x' ++ (lit ++ y) := (List.cons.inj hrest).2
        exact Or.inr ⟨x', y, by rw [List.append_assoc]⟩
  · rintro (h | h)
    · exact h.trans (List.prefix_append s _).isInfix
    · exact h.trans ((List.suffix_cons b t).trans (List.suffix_append s _)).isInfix

/-- What stands in a text behind the first two bytes of an occurrence stands behind the first two bytes
of the text. -/
theorem Bytes.isInfix_drop_two {a b : UInt8} {lit s : Bytes} (h : a :: b :: lit <:+: s) :
    lit <:+: s.drop 2 := by
  obtain ⟨x, y, rfl⟩ := h
  refine ⟨(x ++ [a, b]).drop 2, y, ?_⟩
  have hsplit : x ++ (a :: b :: lit) ++ y = (x ++ [a, b]) ++ (lit ++ y) := by
    simp only [List.append_assoc, List.cons_append, List.nil_append]
  have hlen : 2 ≤ (x ++ [a, b]).length := by
    rw [List.length_append]
    exact Nat.le_add_left 2 x.length
  rw [hsplit, List.drop_append_of_le_length hlen, List.append_assoc]

namespace Literal

/-- The search goes past no occurrence of a literal that starts with an ASCII byte: the bytes that it
skips belong to longer characters. -/
theorem le_of_findFrom? {a : UInt8} (ha : a < 0x80) {lit : Bytes} {skip i j : Nat} {s rest : Bytes}
    (h : findFrom? (a :: lit) skip i s = some (j, rest)) (hskip : ∀ c ∈ s.take skip, 0x80 ≤ c)
    {x m : Bytes} (hs : s = x ++ a :: m) (hm : (strip? (a :: lit) (a :: m)).isSome) :
    j ≤ i + x.length := by
  fun_induction findFrom? (a :: lit) skip i s generalizing x with
  | case1 => simp at hs
  | case2 skip i b s ih =>
    cases x with
    | nil =>
      obtain rfl : b = a := (List.cons.inj hs).1
      have hle : 0x80 ≤ b := hskip b List.mem_cons_self
      exact absurd ha (UInt8.not_lt.2 hle)
    | cons c x =>
      have hle := ih h (fun d hd => hskip d (List.mem_cons_of_mem b hd)) (List.cons.inj hs).2
      rw [List.length_cons]
      omega
  | case3 i b s r hr =>
    cases h
    exact Nat.le_add_right j x.length
  | case4 i b s hnone ih =>
    cases x with
    | nil =>
      rw [hs, List.nil_append] at hnone
      rw [hnone] at hm
      simp at hm
    | cons c x =>
      have hle := ih h Rune.le_of_mem_take (List.cons.inj hs).2
      rw [List.length_cons]
      omega

/-- The search stops at the first occurrence. -/
theorem not_infix_of_find? {a : UInt8} (ha : a < 0x80) {lit s rest : Bytes} {i : Nat}
    (hp : IsPlain (a :: lit)) (h : find? (a :: lit) s = some (i, rest)) :
    ¬ a :: lit <:+: s.take i := by
  rintro ⟨x, y, hxy⟩
  have hs : s = x ++ a :: (lit ++ (y ++ s.drop i)) := by
    calc s = s.take i ++ s.drop i := (List.take_append_drop i s).symm
      _ = x ++ a :: (lit ++ (y ++ s.drop i)) := by
        rw [← hxy]
        simp only [List.append_assoc, List.cons_append]
  have hm : (strip? (a :: lit) (a :: (lit ++ (y ++ s.drop i)))).isSome := by
    rw [strip?_eq_bytes hp, ← List.cons_append, Bytes.strip?_append]
    rfl
  have hle := le_of_findFrom? ha h (by simp) hs hm
  have hlen := congrArg List.length hxy
  simp only [List.length_append, List.length_cons, List.length_take] at hlen
  omega

end Literal

/-! ### The marker in the new text -/

/-- The marker does not occur in front of the region. -/
theorem Region.Layout.not_infix_front {src : Bytes} {o : Options} {r : Region} (l : Region.Layout src o r)
    (hcheck : o.check = .ok ()) (hlocate : Region.locate src o = .ok r)
    (hp : Literal.IsPlain o.marker) : ¬ o.marker <:+: l.front := by
  obtain ⟨note, hnote⟩ := o.exists_marker_of_check hcheck
  rw [← l.take_start]
  obtain ⟨rest, hfind⟩ := Region.exists_find?_of_locate hlocate
  unfold Region.find? at hfind
  obtain ⟨⟨i, after⟩, hmarker, hfind⟩ := Option.bind_eq_some_iff.1 hfind
  obtain ⟨⟨inFront, rest'⟩, -, hfind⟩ := Option.bind_eq_some_iff.1 hfind
  cases hfind
  rw [hnote] at hmarker hp ⊢
  show ¬ slash :: star :: note <:+: src.take (0 + i)
  rw [Nat.zero_add]
  exact Literal.not_infix_of_find? (by decide) hp hmarker

/-- Without the marker there is no region. -/
theorem Region.find?_eq_none {o : Options} {s : Bytes} (hp : Literal.IsPlain o.marker)
    (h : ¬ o.marker <:+: s) (i : Nat) : Region.find? o i s = none := by
  cases hfind : Literal.find? o.marker s with
  | none => simp [Region.find?, hfind]
  | some found =>
    obtain ⟨front, m, hs, -, hm⟩ := Literal.exists_of_find? hfind
    rw [Literal.strip?_eq_bytes hp] at hm
    refine absurd ⟨front, found.2, ?_⟩ h
    rw [hs, Bytes.eq_append_of_strip? hm, List.append_assoc]

namespace Activation

/-- The text of a marker behind the bytes that open its comment. -/
def noteOf (o : Options) : Bytes := o.marker.drop 2

/-- The marker stands once: it starts a line and ends on it, the group ends its line, and the text of
the marker behind its `/*` does not occur again from there on. -/
structure Unrepeated (src : Bytes) (o : Options) (a : Activation) : Prop where
  plain : Literal.IsPlain o.marker
  one_line : lf ∉ o.marker ∧ cr ∉ o.marker
  starts_line : ∀ b ∈ (src.take a.region.start).getLast?, b = lf
  ends_line : ∃ b ∈ (src.drop (a.region.bodyOffset + a.group.stop)).head?, b = lf ∨ b = cr
  once : ¬ noteOf o <:+: src.drop (a.region.start + 3)

/-- A line end keeps two lines apart. -/
theorem infix_append_lineEnd_iff {o : Options} (hline : lf ∉ o.marker ∧ cr ∉ o.marker) (r : Region)
    {s t : Bytes} :
    o.marker <:+: s ++ (lineEnd r ++ t) ↔ o.marker <:+: s ∨ o.marker <:+: t := by
  rcases lineEnd_eq r with h | h
  · rw [h]
    exact infix_append_cons_iff hline.1
  · rw [h, List.cons_append, List.cons_append, List.nil_append, infix_append_cons_iff hline.2,
      ← List.nil_append (lf :: t), infix_append_cons_iff hline.1]
    constructor
    · rintro (h | h | h)
      · exact Or.inl h
      · exact Or.inl (h.trans List.nil_infix)
      · exact Or.inr h
    · rintro (h | h)
      · exact Or.inl h
      · exact Or.inr (Or.inr h)

section

variable {src : Bytes} {o : Options} {a : Activation} (l : Region.Layout src o a.region)
  (m : Group.Layout a.region.body o a.group)

theorem drop_group_eq : src.drop (a.region.bodyOffset + a.group.stop) =
    m.back ++ (a.region.closing ++ l.back) := by
  have hsrc : src = (l.front ++ (a.region.opening ++ (m.front ++ a.group.raw))) ++
      (m.back ++ (a.region.closing ++ l.back)) := by
    calc src = l.front ++ (a.region.opening ++ (a.region.body ++ (a.region.closing ++ l.back))) :=
          l.src_eq
      _ = l.front ++ (a.region.opening ++ ((m.front ++ (a.group.raw ++ m.back)) ++
          (a.region.closing ++ l.back))) := by rw [← m.body_eq]
      _ = _ := by simp only [List.append_assoc]
  have hlen : a.region.bodyOffset + a.group.stop =
      (l.front ++ (a.region.opening ++ (m.front ++ a.group.raw))).length := by
    rw [Region.bodyOffset, Group.stop, l.start_eq, m.start_eq]
    simp only [List.length_append]
    omega
  rw [hlen]
  exact (congrArg (List.drop _) hsrc).trans List.drop_left

/-- The marker of an unrepeated one goes on behind its `/*`, since an empty text occurs everywhere, and
everything behind that place is free of its note. -/
theorem Unrepeated.exists_opening (hu : Unrepeated src o a) (hcheck : o.check = .ok ()) :
    ∃ c note, o.marker = slash :: star :: c :: note ∧
      a.region.opening = slash :: star :: c :: (note ++ l.blanks) ∧
      ¬ c :: note <:+: note ++ l.blanks ++ (m.front ++ (a.group.raw ++ (m.back ++
        (a.region.closing ++ l.back)))) := by
  obtain ⟨note, hmarker⟩ := o.exists_marker_of_check hcheck
  have honce : ¬ note <:+: src.drop (a.region.start + 3) := by
    have honce := hu.once
    rw [noteOf, hmarker] at honce
    exact honce
  have hsame : l.marker = o.marker := Literal.eq_of_strip? hu.plain l.marker_match
  cases note with
  | nil => exact absurd List.nil_infix honce
  | cons c note =>
    have hopening : a.region.opening = slash :: star :: c :: (note ++ l.blanks) := by
      rw [l.opening_eq, hsame, hmarker]
      rfl
    refine ⟨c, note, hmarker, hopening, ?_⟩
    have htail : src.drop (a.region.start + 3) = note ++ l.blanks ++ (m.front ++ (a.group.raw ++
        (m.back ++ (a.region.closing ++ l.back)))) := by
      calc src.drop (a.region.start + 3)
          = (l.front ++ (a.region.opening ++ (a.region.body ++ (a.region.closing ++ l.back)))).drop
              (l.front.length + 3) := by rw [← l.src_eq, l.start_eq]
        _ = (a.region.opening ++ (a.region.body ++ (a.region.closing ++ l.back))).drop 3 := by
            rw [← List.drop_drop, List.drop_left]
        _ = note ++ l.blanks ++ ((m.front ++ (a.group.raw ++ m.back)) ++
              (a.region.closing ++ l.back)) := by rw [hopening, ← m.body_eq]; rfl
        _ = _ := by simp only [List.append_assoc]
    rwa [← htail]

/-- No line of the rewritten region has an unrepeated marker in it. -/
theorem Unrepeated.not_infix_region (hu : Unrepeated src o a) (hcheck : o.check = .ok ()) :
    ¬ o.marker <:+: Blank.trimEnd (enableMarker a.region.opening) ++ (lineEnd a.region ++
      (Blank.trimStart a.group.raw ++ (lineEnd a.region ++
        (slash :: star :: (m.front ++ (m.back ++ (a.region.closing ++ l.back))))))) := by
  obtain ⟨c, note, hmarker, hopening, habsent⟩ := hu.exists_opening l m hcheck
  have hnote : ¬ o.marker <:+: Blank.trimEnd (enableMarker a.region.opening) := by
    obtain ⟨w, hw, -⟩ := Blank.exists_trimEnd (enableMarker a.region.opening)
    intro hin
    have hin : slash :: star :: c :: note <:+: slash :: slash :: c :: (note ++ l.blanks) := by
      rw [← hmarker, ← enableMarker_eq, ← hopening, hw]
      exact hin.trans (List.prefix_append _ w).isInfix
    rcases List.infix_cons_iff.1 hin with ⟨t, ht⟩ | hin
    · have hstar : star = slash := (List.cons.inj (List.cons.inj ht).2).1
      exact absurd hstar (by decide)
    · exact habsent ((isInfix_drop_two hin).trans (List.prefix_append _ _).isInfix)
  have hgroup : ¬ o.marker <:+: Blank.trimStart a.group.raw := by
    rw [m.trimStart_raw l.keyword_word, hmarker]
    intro hin
    apply habsent
    rw [m.raw_eq]
    refine ((isInfix_drop_two hin).trans (List.drop_suffix 2 _).isInfix).trans ?_
    exact ⟨note ++ l.blanks ++ (m.front ++ m.gap), m.back ++ (a.region.closing ++ l.back), by
      simp only [List.append_assoc, List.cons_append]⟩
  have hfront : ¬ o.marker <:+: slash :: star :: m.front := by
    rw [hmarker]
    intro hin
    apply habsent
    exact (isInfix_drop_two hin).trans ⟨note ++ l.blanks, _, by rw [List.append_assoc]; rfl⟩
  -- the group ends its line, so the marker does not go over the place where it was
  obtain ⟨b, hb, hbreak⟩ := hu.ends_line
  rw [drop_group_eq l m, Option.mem_def, List.head?_eq_some_iff] at hb
  obtain ⟨behind, hbehind⟩ := hb
  have hb : b ∉ o.marker := by
    rcases hbreak with rfl | rfl
    · exact hu.one_line.1
    · exact hu.one_line.2
  have hback : ¬ o.marker <:+: behind := by
    rw [hmarker]
    intro hin
    apply habsent
    rw [hbehind]
    refine ((isInfix_drop_two hin).trans (List.drop_suffix 2 _).isInfix).trans ?_
    exact ⟨note ++ l.blanks ++ (m.front ++ (a.group.raw ++ [b])), [], by
      simp only [List.append_assoc, List.cons_append, List.nil_append, List.append_nil]⟩
  rw [hbehind, infix_append_lineEnd_iff hu.one_line, infix_append_lineEnd_iff hu.one_line,
    ← List.cons_append, ← List.cons_append, infix_append_cons_iff hb]
  simp only [not_or]
  exact ⟨hnote, hgroup, hfront, hback⟩

end

/-- An unrepeated marker does not occur in the new text. -/
theorem Unrepeated.not_infix_text {src : Bytes} {o : Options} {a : Activation}
    (hu : Unrepeated src o a) (hrun : run src o = .ok a) : ¬ o.marker <:+: a.text := by
  obtain ⟨hcheck, hlocate, hextract, htext⟩ := exists_of_run hrun
  obtain ⟨l⟩ := Region.layout_of_locate hlocate
  obtain ⟨m⟩ := Group.layout_of_extract hextract
  have hregion := hu.not_infix_region l m hcheck
  have hfirst := l.not_infix_front hcheck hlocate hu.plain
  have hstarts := hu.starts_line
  rw [l.take_start] at hstarts
  rw [htext, text_eq l m]
  rcases List.eq_nil_or_concat l.front with hnil | ⟨f, b, hf⟩
  · rw [hnil, List.nil_append]
    exact hregion
  · rw [List.concat_eq_append] at hf
    obtain rfl : b = lf := hstarts b (by simp [hf])
    rw [hf] at hfirst ⊢
    rw [List.append_assoc, List.cons_append, List.nil_append, infix_append_cons_iff hu.one_line.1]
    rintro (hin | hin)
    · exact hfirst (hin.trans (List.prefix_append f [lf]).isInfix)
    · exact hregion hin

/-- **A second activation finds no region.** Whatever the options, a successful activation is the last
one with them, as long as the marker stands once. -/
theorem regionNotFound_of_unrepeated {src : Bytes} {o : Options} {a : Activation}
    (hrun : run src o = .ok a) (hu : Unrepeated src o a) :
    run a.text o = .error (.regionNotFound o.marker o.keyword o.anchor) := by
  obtain ⟨hcheck, -⟩ := exists_of_run hrun
  obtain ⟨⟨hmarker, hanchor⟩, ⟨hkeyword, -⟩, -⟩ := isUtf8_of_run hrun
  have hfind : Region.find? o 0 a.text = none :=
    Region.find?_eq_none hu.plain (hu.not_infix_text hrun) 0
  have hlocate : Region.locate a.text o = .error (.regionNotFound o.marker o.keyword o.anchor) := by
    simp only [Region.locate, hmarker, hanchor, hkeyword, hfind]
    rfl
  simp only [run, hcheck, hlocate, bind, Except.bind]

/-- Two groups and a marker with a text of its own, on Windows lines. -/
theorem regionNotFound_of_unrepeated_two_groups :
    run "x;\n//m\r\nd('a',()=>\x7b\x7d);\r\n/*d('b',()=>\x7b\x7d);\r\n*/\r\nd('z'"
      { marker := "/*m", anchor := "z", keyword := "d", name := "a" } =
      .error (.regionNotFound "/*m" "d" "z") :=
  @regionNotFound_of_unrepeated
    "x;\n/*m \r\nd('b',()=>\x7b\x7d);\r\nd('a',()=>\x7b\x7d);\r\n*/\r\nd('z'"
    { marker := "/*m", anchor := "z", keyword := "d", name := "a" }
    ⟨"x;\n//m\r\nd('a',()=>\x7b\x7d);\r\n/*d('b',()=>\x7b\x7d);\r\n*/\r\nd('z'",
      ⟨"/*m \r\n", "d('b',()=>\x7b\x7d);\r\nd('a',()=>\x7b\x7d);", "\r\n*/\r\nd('z", 3⟩,
      ⟨"a", "\r\nd('a',()=>\x7b\x7d);", 14⟩, ["b"]⟩
    rfl ⟨by decide, by decide, by decide +kernel, by decide, by decide⟩

/-- A marker that is nothing but `/*` comes back with the fresh comment: the second activation finds a
region, and in it no group of that name. -/
theorem bare_marker_comes_back : ∃ (src : Bytes) (o : Options) (a : Activation),
    run src o = .ok a ∧ run a.text o = .error (.groupNotFound o.keyword o.name) ∧
      run a.text o ≠ .error (.regionNotFound o.marker o.keyword o.anchor) := by
  refine ⟨"/*\nd('a',()=>\x7b\x7d);\nd('b',()=>\x7b\x7d);\n*/\nd('z'",
    { marker := "/*", anchor := "z", keyword := "d", name := "a" },
    ⟨"//\nd('a',()=>\x7b\x7d);\n/*\nd('b',()=>\x7b\x7d);\n*/\nd('z'",
      ⟨"/*\n", "d('a',()=>\x7b\x7d);\nd('b',()=>\x7b\x7d);", "\n*/\nd('z", 0⟩,
      ⟨"a", "d('a',()=>\x7b\x7d);", 0⟩, ["b"]⟩, rfl, rfl, ?_⟩
  intro h
  have hfault : Fault.groupNotFound "d" "a" = Fault.regionNotFound "/*" "d" "z" := Except.error.inj h
  exact Fault.noConfusion hfault

end Activation

end Spotlight
