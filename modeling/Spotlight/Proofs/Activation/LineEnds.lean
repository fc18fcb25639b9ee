import Mathlib.Data.List.Basic
import Spotlight.Proofs.Activation.Basic

/-!
# Line ends

An activation puts two line ends into a file. They are a carriage return and a line feed where the region shows that the
file has such line ends: behind its marker, or in its groups if the first of them shares the line of the marker. In a
file with such line ends only, the new text has no others then; where the region shows no line end at all, it gets two
bare line feeds.

* `Bytes.HasCrlf` — every line feed has a carriage return in front of it;
* `Bytes.HasCrlf.append`, `Bytes.HasCrlf.left`, `Bytes.HasCrlf.right` — the parts of such a text;
* `Activation.lineEnd_eq_crlf_iff` — which line end is put in;
* `Region.Layout.hasCrlf_parts`, `Group.Layout.hasCrlf_parts` — the parts of the file that go into the new text;
* `Activation.hasCrlf_iff_of_run` — the line ends of the new text.
-/

namespace Spotlight

open Bytes

/-! ### Texts -/

namespace Bytes

/-- Every line feed of the text has a carriage return in front of it. -/
def HasCrlf (s : Bytes) : Prop := ∀ front rest, s = front ++ lf :: rest → front.getLast? = some cr

theorem hasCrlf_iff {s : Bytes} : HasCrlf s ↔ ∀ i < s.length, s[i]? = some lf → (s.take i).getLast? = some cr := by
  constructor
  · intro h i hi hlf
    rw [List.getElem?_eq_getElem hi, Option.some.injEq] at hlf
    apply h _ (s.drop (i + 1))
    rw [← hlf, ← List.drop_eq_getElem_cons hi, List.take_append_drop]
  · intro h front rest hs
    have hlf := h front.length (by rw [hs]; simp) (by rw [hs]; simp)
    rwa [hs, List.take_left] at hlf

instance (s : Bytes) : Decidable (HasCrlf s) := decidable_of_iff _ hasCrlf_iff.symm

theorem hasCrlf_crlf : HasCrlf [cr, lf] := by decide

variable {x y : Bytes}

theorem HasCrlf.append (hx : HasCrlf x) (hy : HasCrlf y) : HasCrlf (x ++ y) := by
  intro front rest h
  rcases List.append_eq_append_iff.1 h with ⟨c, rfl, hc⟩ | ⟨c, rfl, hc⟩
  · rw [List.getLast?_append, hy c rest hc]
    rfl
  · cases c with
    | nil =>
      have hnone := hy [] rest hc.symm
      simp at hnone
    | cons b c =>
      obtain ⟨rfl, -⟩ := List.cons.inj hc
      exact hx front c rfl

theorem HasCrlf.left (h : HasCrlf (x ++ y)) : HasCrlf x := by
  rintro front rest rfl
  exact h front (rest ++ y) (by simp)

/-- A part of such a text is one, too, if it does not start between the two bytes of a line end. -/
theorem HasCrlf.right (h : HasCrlf (x ++ y)) (hcut : x.getLast? ≠ some cr ∨ y.head? ≠ some lf) : HasCrlf y := by
  rintro front rest rfl
  have hlast := h (x ++ front) rest (List.append_assoc x front _).symm
  rw [List.getLast?_append] at hlast
  cases front with
  | nil =>
    rcases hcut with hcut | hcut
    · exact absurd hlast hcut
    · exact absurd rfl hcut
  | cons b front =>
    rw [List.getLast?_cons, Option.some_or, ← List.getLast?_cons] at hlast
    exact hlast

/-- Such a text has a line end where it has a line feed. -/
theorem HasCrlf.infix_iff {s : Bytes} (h : HasCrlf s) : [cr, lf] <:+: s ↔ lf ∈ s := by
  constructor
  · intro hin
    exact hin.subset (by decide)
  · intro hmem
    obtain ⟨front, rest, rfl⟩ := List.append_of_mem hmem
    obtain ⟨front', rfl⟩ := List.getLast?_eq_some_iff.1 (h front rest rfl)
    exact ⟨front', rest, by simp⟩

end Bytes

/-! ### The parts of the old text -/

section

variable {src : Bytes} {o : Options} {r : Region} {g : Group}

/-- The parts of a file that stay where they are. None of them starts between the two bytes of a line end: the region
starts with a slash, its body not with white space, and what follows the group stands behind a parenthesis or a
semicolon. -/
theorem Region.Layout.hasCrlf_parts (l : Region.Layout src o r) (m : Group.Layout r.body o g)
    (hcheck : o.check = .ok ()) (hstart : ∀ b ∈ r.body.head?, isBlank b = false)
    (hstop : ∃ b ∈ g.raw.getLast?, Scan.isCallEnd b = true) (hsrc : HasCrlf src) :
    HasCrlf l.front ∧ HasCrlf r.opening ∧ HasCrlf r.body ∧ HasCrlf (m.back ++ (r.closing ++ l.back)) := by
  obtain ⟨note, hnote⟩ := l.exists_marker hcheck
  rw [l.src_eq] at hsrc
  have hregion : HasCrlf (r.opening ++ (r.body ++ (r.closing ++ l.back))) := by
    refine hsrc.right (Or.inr ?_)
    rw [l.opening_eq, hnote]
    exact fun hlf => absurd (Option.some.inj hlf) (by decide)
  have hopening : HasCrlf r.opening := hregion.left
  have hbody : HasCrlf r.body := by
    rw [← List.append_assoc] at hregion
    refine hregion.left.right (Or.inr ?_)
    intro hlf
    exact absurd (hstart lf hlf) (by decide)
  have hbehind : HasCrlf (m.back ++ (r.closing ++ l.back)) := by
    rw [m.body_split, List.append_assoc, ← List.append_assoc] at hregion
    refine hregion.right (Or.inl ?_)
    obtain ⟨b, hb, hcall⟩ := hstop
    rw [← List.append_assoc, List.getLast?_append, Option.mem_def.1 hb, Option.some_or]
    intro hcr
    rw [Option.some.inj hcr] at hcall
    exact absurd hcall (by decide)
  exact ⟨hsrc.left, hopening, hbody, hbehind⟩

/-- The parts of a body up to the end of the group. -/
theorem Group.Layout.hasCrlf_parts {body : Bytes} (m : Group.Layout body o g)
    (hword : o.keyword.head?.any isWord = true) (hbody : HasCrlf body) :
    HasCrlf m.front ∧ HasCrlf (Blank.trimStart g.raw) := by
  rw [m.body_eq] at hbody
  refine ⟨hbody.left, ?_⟩
  rw [m.raw_eq, ← m.trimStart_raw hword, ← List.append_assoc, ← List.append_assoc] at hbody
  refine hbody.left.right (Or.inr ?_)
  obtain ⟨b, k, hk, hb⟩ := m.exists_keyword hword
  rw [m.trimStart_raw hword, hk]
  intro hlf
  have hb' : b = lf := by simpa using hlf
  rw [hb'] at hb
  exact absurd hb (by decide)

end

/-! ### The new text -/

namespace Activation

/-- The line end that is put in is a carriage return and a line feed where the region shows one in front of its
close. -/
theorem lineEnd_eq_crlf_iff {r : Region} (h : HasCrlf r.opening) :
    lineEnd r = [cr, lf] ↔ [cr, lf] <:+: r.opening ∨ [cr, lf] <:+: r.body := by
  have hcrlf : Bytes.ofString "\r\n" = [cr, lf] := rfl
  rw [lineEnd, hcrlf]
  by_cases hopening : [cr, lf] <:+: r.opening
  · rw [if_pos (contains_iff.2 hopening)]
    exact iff_of_true rfl (Or.inl hopening)
  · have hnone : r.opening.contains "\n" = false := by
      apply Bool.eq_false_iff.2
      intro hin
      exact hopening (h.infix_iff.2 ((contains_iff.1 hin).subset List.mem_cons_self))
    rw [if_neg (fun hin => hopening (contains_iff.1 hin)), hnone, Bool.not_false, Bool.true_and]
    by_cases hbody : [cr, lf] <:+: r.body
    · rw [if_pos (contains_iff.2 hbody)]
      exact iff_of_true rfl (Or.inr hbody)
    · rw [if_neg (fun hin => hbody (contains_iff.1 hin))]
      exact iff_of_false (by decide) (by simp [hopening, hbody])

/-- The marker as a line comment, without the white space at its end. -/
theorem hasCrlf_note {note : Bytes} (h : HasCrlf (slash :: star :: note)) :
    HasCrlf (Blank.trimEnd (enableMarker (slash :: star :: note))) := by
  obtain ⟨w, hw, -⟩ := Blank.exists_trimEnd (slash :: slash :: note)
  have hnote : HasCrlf note := HasCrlf.right (x := [slash, star]) h (Or.inl (by decide))
  have hslashes : HasCrlf [slash, slash] := by decide
  have hcomment : HasCrlf (slash :: slash :: note) := hslashes.append hnote
  rw [hw] at hcomment
  rw [enableMarker_eq]
  exact hcomment.left

/-- Without it that comment does not end with a carriage return. -/
theorem getLast?_note_ne (front note : Bytes) :
    (front ++ Blank.trimEnd (enableMarker (slash :: star :: note))).getLast? ≠ some cr := by
  have hslash : slash < 0x80 ∧ Blank.isSpace slash.toNat = false := by decide
  have hcons : Blank.trimEnd (enableMarker (slash :: star :: note)) = slash :: Blank.trimEnd (slash :: note) := by
    rw [enableMarker_eq, Blank.trimEnd_cons_of_ascii hslash.1 hslash.2]
  intro hlast
  rw [List.getLast?_append, hcons, List.getLast?_cons, Option.some_or, ← List.getLast?_cons, ← hcons] at hlast
  exact absurd (Blank.not_isSpace_of_getLast?_trimEnd (Option.mem_def.2 hlast) (by decide)) (by decide)

/-- **The new text has the line ends of the old one** if the region shows them in front of its close, and only then. -/
theorem hasCrlf_iff_of_run {src : Bytes} {o : Options} {a : Activation} (h : run src o = .ok a) (hsrc : HasCrlf src) :
    HasCrlf a.text ↔ [cr, lf] <:+: a.region.opening ∨ [cr, lf] <:+: a.region.body := by
  obtain ⟨hcheck, hlocate, hextract, htext⟩ := exists_of_run h
  obtain ⟨l⟩ := Region.layout_of_locate hlocate
  obtain ⟨m⟩ := Group.layout_of_extract hextract
  obtain ⟨rest, hfind⟩ := Region.exists_find?_of_locate hlocate
  obtain ⟨note, hnote⟩ := l.exists_marker hcheck
  have hstart := Region.not_isBlank_of_head?_body hfind
  have hstop := Group.getLast?_of_extract hextract
  obtain ⟨hfront, hopening, hbody, hbehind⟩ := l.hasCrlf_parts m hcheck hstart hstop hsrc
  obtain ⟨hothers, hgroup⟩ := m.hasCrlf_parts l.keyword_word hbody
  have hmarker : a.region.opening = slash :: star :: (note ++ l.blanks) := by
    rw [l.opening_eq, hnote, List.cons_append, List.cons_append]
  rw [← lineEnd_eq_crlf_iff hopening, htext, text_eq l m]
  rw [hmarker] at hopening ⊢
  constructor
  · intro hnew
    rcases lineEnd_eq a.region with hlf | hcrlf
    · -- the first line end that is put in stands behind the marker
      rw [hlf, ← List.append_assoc] at hnew
      exact absurd (hnew _ _ rfl) (getLast?_note_ne l.front (note ++ l.blanks))
    · exact hcrlf
  · intro hcrlf
    have hopen : HasCrlf [slash, star] := by decide
    rw [hcrlf]
    exact hfront.append ((hasCrlf_note hopening).append (hasCrlf_crlf.append (hgroup.append
      (hasCrlf_crlf.append (hopen.append (hothers.append hbehind))))))

/-- The first group shares the line of the marker, and the groups show the line end. -/
theorem hasCrlf_iff_of_run_shared_line :
    let src : Bytes := "x;\r\n/*m d('a',()=>\x7b\x7d);\r\n\r\nd('b',()=>\x7b\x7d);\r\n*/\r\nd('z',()=>\x7b\x7d);\r\n"
    let o : Options := { marker := "/*m", anchor := "z", keyword := "d", name := "b", scan := "heuristic" }
    let a : Activation :=
      ⟨"x;\r\n//m\r\nd('b',()=>\x7b\x7d);\r\n/*d('a',()=>\x7b\x7d);\r\n*/\r\nd('z',()=>\x7b\x7d);\r\n",
        ⟨"/*m ", "d('a',()=>\x7b\x7d);\r\n\r\nd('b',()=>\x7b\x7d);", "\r\n*/\r\nd('z", 4⟩,
        ⟨"b", "\r\n\r\nd('b',()=>\x7b\x7d);", 14⟩, ["a"]⟩
    run src o = .ok a ∧ HasCrlf src ∧ [cr, lf] <:+: a.region.body ∧ HasCrlf a.text := by
  intro src o a
  have hrun : run src o = .ok a := by decide +kernel
  have hsrc : HasCrlf src := by decide +kernel
  have hbody : [cr, lf] <:+: a.region.body := by decide +kernel
  exact ⟨hrun, hsrc, hbody, (hasCrlf_iff_of_run hrun hsrc).2 (Or.inr hbody)⟩

/-- The region is part of one line. The file has carriage returns in front of all its line feeds, and gets two bare
ones. -/
theorem bare_line_feeds_in_crlf_file : ∃ (src : Bytes) (o : Options) (a : Activation),
    HasCrlf src ∧ [cr, lf] <:+: src ∧ o.check = .ok () ∧ run src o = .ok a ∧ ¬ HasCrlf a.text :=
  ⟨"x;\r\n/*m d('a', () => \x7b\x7d); d('b', () => \x7b\x7d); */ d('z', () => \x7b\x7d);\r\n",
    { marker := "/*m", anchor := "z", keyword := "d", name := "a" },
    ⟨"x;\r\n//m\nd('a', () => \x7b\x7d);\n/* d('b', () => \x7b\x7d); */ d('z', () => \x7b\x7d);\r\n",
      ⟨"/*m ", "d('a', () => \x7b\x7d); d('b', () => \x7b\x7d);", " */ d('z", 4⟩,
      ⟨"a", "d('a', () => \x7b\x7d);", 0⟩, ["b"]⟩,
    by decide +kernel, by decide +kernel, rfl, by decide +kernel, by decide +kernel⟩

end Activation

end Spotlight
