import Spotlight.Activation
import Spotlight.Proofs.Activation.Layout
import Spotlight.Proofs.Group.Layout
import Spotlight.Proofs.Text.Blank

/-!
# The steps of an activation

* `Activation.exists_of_run` — what a successful activation is made of;
* `Activation.isUtf8_of_run` — its texts are well formed;
* `Activation.run_ne_malformedName` — the search does not break down over well-formed texts;
* `Region.Layout.exists_marker`, `Group.Layout.exists_keyword` — the first bytes of the marker and of
  the group;
* `Group.Layout.trimStart_raw` — the white space before the header is all that is trimmed off a group;
* `Activation.text_eq` — the new text, cut at all its seams.
-/

namespace Spotlight

open Bytes

/-- The options of an activation have passed their check: the marker opens a comment. -/
theorem Options.exists_marker_of_check {o : Options} (h : o.check = .ok ()) :
    ∃ note, o.marker = slash :: star :: note := by
  unfold check at h
  split at h
  · simp at h
  · rename_i hstarts
    simp only [Bool.not_eq_true', Bool.not_eq_false] at hstarts
    obtain ⟨note, hnote⟩ := Option.isSome_iff_exists.1 hstarts
    exact ⟨note, Bytes.eq_append_of_strip? hnote⟩

/-- The bytes that match the marker open a comment, too. -/
theorem Region.Layout.exists_marker {src : Bytes} {o : Options} {r : Region} (l : Region.Layout src o r)
    (h : o.check = .ok ()) : ∃ note, l.marker = slash :: star :: note := by
  obtain ⟨text, htext⟩ := o.exists_marker_of_check h
  have hmatch := l.marker_match
  rw [htext] at hmatch
  obtain ⟨m₁, hm₁, hmatch₁⟩ := Literal.exists_cons_of_strip? (by decide) hmatch
  obtain ⟨m₂, hm₂, -⟩ := Literal.exists_cons_of_strip? (by decide) hmatch₁
  exact ⟨m₂, by rw [hm₁, hm₂]⟩

/-- A word byte is ASCII and no white space. -/
theorem Bytes.ascii_of_isWord {b : UInt8} (h : isWord b = true) :
    b < 0x80 ∧ Blank.isSpace b.toNat = false := by
  simp only [isWord, isLetter, isDigit, Bool.or_eq_true, Bool.and_eq_true, decide_eq_true_eq,
    beq_iff_eq, UInt8.le_iff_toNat_le, ← UInt8.toNat_inj] at h
  simp only [UInt8.lt_iff_toNat_lt, Blank.isSpace, Bool.or_eq_false_iff, Bool.and_eq_false_iff,
    decide_eq_false_iff_not, beq_eq_false_iff_ne]
  simp only [UInt8.toNat_ofNat, Nat.reduceMod, Nat.reducePow] at h ⊢
  omega

/-- White space in ASCII is white space. -/
theorem Scan.blank_of_isSpace {b : UInt8} (h : Scan.isSpace b = true) :
    b < 0x80 ∧ Blank.isSpace b.toNat = true := by
  simp only [Scan.isSpace, isBlank, Bool.or_eq_true, beq_iff_eq] at h
  rcases h with ((((rfl | rfl) | rfl) | rfl) | rfl) | rfl <;> decide

/-- A group starts with a word byte behind its white space. -/
theorem Group.Layout.exists_keyword {body : Bytes} {o : Options} {g : Group} (l : Group.Layout body o g)
    (hword : o.keyword.head?.any isWord = true) :
    ∃ b k, l.keyword = b :: k ∧ isWord b = true := by
  have hmatch := l.keyword_match
  cases hkey : o.keyword with
  | nil => simp [hkey] at hword
  | cons b k =>
    rw [hkey] at hword hmatch
    have hb : isWord b = true := by simpa using hword
    obtain ⟨k', hk', -⟩ := Literal.exists_cons_of_strip? (ascii_of_isWord hb).1 hmatch
    exact ⟨b, k', hk', hb⟩

/-- The white space before the header is all that is trimmed off a group. -/
theorem Group.Layout.trimStart_raw {body : Bytes} {o : Options} {g : Group} (l : Group.Layout body o g)
    (hword : o.keyword.head?.any isWord = true) :
    Blank.trimStart g.raw = l.keyword ++ lparen :: l.rest := by
  obtain ⟨b, k, hk, hb⟩ := l.exists_keyword hword
  rw [l.raw_eq, hk, List.cons_append]
  apply Blank.trimStart_of_ascii _ (ascii_of_isWord hb).1 (ascii_of_isWord hb).2
  intro c hc
  exact Scan.blank_of_isSpace (List.all_eq_true.1 l.gap_space c hc)

theorem Group.Layout.remainder_eq {body : Bytes} {o : Options} {g : Group} (l : Group.Layout body o g) :
    Group.remainder body g = l.front ++ l.back := by
  rw [Group.remainder, l.take_start, l.drop_stop]

theorem Region.Layout.take_start {src : Bytes} {o : Options} {r : Region} (l : Region.Layout src o r) :
    src.take r.start = l.front := by
  rw [l.start_eq]
  exact (congrArg (List.take _) l.src_eq).trans List.take_left

theorem Region.Layout.drop_stop {src : Bytes} {o : Options} {r : Region} (l : Region.Layout src o r) :
    src.drop r.stop = l.back := by
  have hstop : r.stop = (l.front ++ r.text).length := by
    rw [List.length_append, ← l.start_eq]
    rfl
  have hsrc : src = (l.front ++ r.text) ++ l.back := by
    rw [Region.text]
    simpa only [List.append_assoc] using l.src_eq
  rw [hstop]
  exact (congrArg (List.drop _) hsrc).trans List.drop_left

/-- The search for a group does not break down over well-formed texts. -/
theorem Group.extract_ne_malformedName {o : Options} (hkeyword : o.keyword.isUtf8 = true)
    (hname : o.name.isUtf8 = true) (body : Bytes) : extract body o ≠ .error .malformedName := by
  have honly : ∀ {α : Type} (l : List α), only o l ≠ .error .malformedName := by
    intro α l
    match l with
    | [] | [a] | a :: b :: l => simp [only]
  rw [extract, hkeyword, hname]
  intro h
  simp only [Bool.and_self, Bool.not_true, Bool.false_eq_true, if_false] at h
  split at h
  · unfold extractHeuristic at h
    cases hspan : only o (heuristicSpans body 0 (allHeadersFrom o.keyword (.exactly o.name) 0 none body)) with
    | error f =>
      simp only [hspan, bind, Except.bind, Except.error.injEq] at h
      exact honly _ (h ▸ hspan)
    | ok span => simp [hspan, bind, Except.bind, pure, Except.pure] at h
  · unfold extractBalanced at h
    cases hhead : only o (topLevel o.keyword (.exactly o.name) body) with
    | error f =>
      simp only [hhead, bind, Except.bind, Except.error.injEq] at h
      exact honly _ (h ▸ hhead)
    | ok header =>
      simp only [hhead, bind, Except.bind] at h
      split at h
      · simp at h
      · split at h <;> simp at h

namespace Activation

theorem enableMarker_eq (note : Bytes) : enableMarker (slash :: star :: note) = slash :: slash :: note := by
  rfl

theorem lineEnd_eq (r : Region) : lineEnd r = [lf] ∨ lineEnd r = [cr, lf] := by
  unfold lineEnd
  split
  · exact Or.inr rfl
  · split
    · exact Or.inr rfl
    · exact Or.inl rfl

/-- What a successful activation is made of. -/
theorem exists_of_run {src : Bytes} {o : Options} {a : Activation} (h : run src o = .ok a) :
    o.check = .ok () ∧ Region.locate src o = .ok a.region ∧
      Group.extract a.region.body o = .ok a.group ∧
      a.text = (Document.split src a.region).join (rewrite a.region a.group) := by
  unfold run at h
  cases hcheck : o.check with
  | error f => simp [hcheck, bind, Except.bind] at h
  | ok _ =>
    cases hloc : Region.locate src o with
    | error f => simp [hcheck, hloc, bind, Except.bind] at h
    | ok r =>
      cases hext : Group.extract r.body o with
      | error f => simp [hcheck, hloc, hext, bind, Except.bind] at h
      | ok g =>
        cases hlist : Group.list (Group.remainder r.body g) o.keyword with
        | error f => simp [hcheck, hloc, hext, hlist, bind, Except.bind] at h
        | ok names =>
          simp only [hcheck, hloc, hext, hlist, bind, Except.bind, pure, Except.pure,
            Except.ok.injEq] at h
          subst h
          exact ⟨rfl, rfl, hext, rfl⟩

/-- The texts of a successful activation are well formed. -/
theorem isUtf8_of_run {src : Bytes} {o : Options} {a : Activation} (h : run src o = .ok a) :
    (o.marker.isUtf8 = true ∧ o.anchor.isUtf8 = true) ∧
      (o.keyword.isUtf8 = true ∧ o.name.isUtf8 = true) ∧ o.scan.isUtf8 = true := by
  obtain ⟨hcheck, hlocate, hextract, -⟩ := exists_of_run h
  have hregion : o.marker.isUtf8 = true ∧ o.keyword.isUtf8 = true ∧ o.anchor.isUtf8 = true := by
    unfold Region.locate at hlocate
    split at hlocate
    · cases hlocate
    · rename_i hutf8
      simp only [Bool.not_eq_true', Bool.not_eq_false, Bool.and_eq_true] at hutf8
      exact ⟨hutf8.1.1, hutf8.1.2, hutf8.2⟩
  have hgroup : o.keyword.isUtf8 = true ∧ o.name.isUtf8 = true := by
    rw [← Bool.and_eq_true]
    exact Group.isUtf8_of_extract hextract
  have hscan : o.hasKnownScan = true := by
    unfold Options.check at hcheck
    grind
  refine ⟨⟨hregion.1, hregion.2.2⟩, hgroup, ?_⟩
  simp only [Options.hasKnownScan, Options.isHeuristic, Bool.or_eq_true, List.isEmpty_iff, beq_iff_eq]
    at hscan
  rcases hscan with (hscan | hscan) | hscan
  · rw [hscan]
    decide
  · rw [hscan]
    decide
  · rw [hscan]
    decide

/-- The search for a group does not break down over well-formed texts. -/
theorem run_ne_malformedName {o : Options} (hkeyword : o.keyword.isUtf8 = true)
    (hname : o.name.isUtf8 = true) (src : Bytes) : run src o ≠ .error .malformedName := by
  intro h
  unfold run at h
  cases hcheck : o.check with
  | error f =>
    rw [hcheck] at h
    obtain rfl : f = .malformedName := by simpa [bind, Except.bind] using h
    unfold Options.check at hcheck
    grind
  | ok _ =>
    cases hloc : Region.locate src o with
    | error f =>
      rw [hcheck, hloc] at h
      obtain rfl : f = .malformedName := by simpa [bind, Except.bind] using h
      unfold Region.locate at hloc
      grind
    | ok r =>
      cases hext : Group.extract r.body o with
      | error f =>
        rw [hcheck, hloc] at h
        simp only [bind, Except.bind] at h
        rw [hext] at h
        obtain rfl : f = .malformedName := by simpa using h
        exact Group.extract_ne_malformedName hkeyword hname _ hext
      | ok g =>
        rw [hcheck, hloc] at h
        simp [hext, Group.list, hkeyword, bind, Except.bind, pure, Except.pure] at h

/-- The new text, cut at its seams. -/
theorem text_eq {src : Bytes} {o : Options} {r : Region} {g : Group} (l : Region.Layout src o r)
    (m : Group.Layout r.body o g) :
    (Document.split src r).join (rewrite r g) = l.front ++ (Blank.trimEnd (enableMarker r.opening) ++
      (lineEnd r ++ (Blank.trimStart g.raw ++ (lineEnd r ++
        (slash :: star :: (m.front ++ (m.back ++ (r.closing ++ l.back)))))))) := by
  have hopen : Bytes.ofString "/*" = [slash, star] := rfl
  rw [Document.split, Document.join, l.take_start, l.drop_stop, rewrite, m.remainder_eq, hopen]
  simp only [List.append_assoc, List.cons_append, List.nil_append]

end Activation

end Spotlight
