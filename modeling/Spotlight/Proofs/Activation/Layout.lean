import Spotlight.Proofs.Text.Bytes
import Spotlight.Proofs.Text.Literal
import Spotlight.Region

/-!
# How a disabled region lies in its file

* `Region.exists_of_readClose?`, `Region.exists_of_findClose?` — the close and what stands in front
  of it;
* `Region.Layout` — a file cut at every seam of a region: the marker, the white space behind it, the
  body, the white space in front of the close, the close and the head of the anchor group;
* `Region.layout_of_locate` — every region that is found has such a layout;
* `Region.not_isBlank_of_head?_body` — its body does not start with white space.
-/

namespace Spotlight.Region

open Bytes

/-- What is skipped in front of a text is white space. -/
theorem exists_skipBlanks (s : Bytes) : ∃ w, s = w ++ Group.skipBlanks s ∧ w.all isBlank = true :=
  ⟨s.takeWhile isBlank, List.takeWhile_append_dropWhile.symm, List.all_takeWhile⟩

/-- The byte in front of which the white space stops is not white space. -/
theorem not_isBlank_of_skipBlanks {s t : Bytes} {b : UInt8} (h : Group.skipBlanks s = b :: t) : isBlank b = false := by
  have hhead := List.head?_dropWhile_not isBlank s
  rw [show s.dropWhile isBlank = b :: t from h] at hhead
  simpa using hhead

/-! ### The close -/

/-- A close starts with the end of a comment. The keyword behind it starts with a word byte. -/
theorem exists_of_readClose? {o : Options} {s rest : Bytes} (h : readClose? o s = some rest) :
    (∃ anchor, s = star :: slash :: (anchor ++ rest)) ∧ o.keyword.head?.any isWord = true := by
  unfold readClose? at h
  obtain ⟨s₁, h₁, h⟩ := Option.bind_eq_some_iff.1 h
  obtain ⟨⟨⟩, hword, h⟩ := Option.bind_eq_some_iff.1 h
  obtain ⟨s₂, h₂, h⟩ := Option.bind_eq_some_iff.1 h
  obtain ⟨s₃, h₃, h⟩ := Option.bind_eq_some_iff.1 h
  have hs : s = star :: slash :: s₁ := Bytes.eq_append_of_strip? h₁
  obtain ⟨w₁, hw₁, -⟩ := exists_skipBlanks s₁
  obtain ⟨k, hk, -⟩ := Literal.exists_of_strip? h₂
  have hs₂ : s₂ = lparen :: s₃ := Bytes.eq_append_of_strip? h₃
  obtain ⟨w₃, hw₃, -⟩ := exists_skipBlanks s₃
  have hguard : (if o.keyword.head?.any isWord = true then some () else none) = some () := hword
  refine ⟨?_, by simpa using hguard⟩
  cases hblank : Group.skipBlanks s₃ with
  | nil => simp [hblank] at h
  | cons q s₄ =>
    rw [hblank] at h hw₃
    dsimp only at h
    split at h
    · obtain ⟨a, rfl, -⟩ := Literal.exists_of_strip? h
      refine ⟨w₁ ++ (k ++ lparen :: (w₃ ++ q :: a)), ?_⟩
      rw [hs, hw₁, hk, hs₂, hw₃]
      simp only [List.append_assoc, List.cons_append]
    · simp at h

/-- The first close of a text cuts it in two. -/
theorem exists_of_findClose? {o : Options} {s front rest : Bytes}
    (h : findClose? o s = some (front, rest)) :
    ∃ close, s = front ++ close ∧ readClose? o close = some rest := by
  fun_induction findClose? o s generalizing front with
  | case1 => simp at h
  | case2 b s r hr =>
    cases h
    exact ⟨b :: s, rfl, hr⟩
  | case3 b s hnone ih =>
    obtain ⟨⟨front', rest'⟩, hfind, heq⟩ := Option.map_eq_some_iff.1 h
    cases heq
    obtain ⟨close, rfl, hclose⟩ := ih hfind
    exact ⟨close, rfl, hclose⟩

/-! ### The region -/

/-- A file cut at every seam of a region. -/
structure Layout (src : Bytes) (o : Options) (r : Region) where
  /-- What stands in front of the region. -/
  front : Bytes
  /-- The bytes that match the marker. -/
  marker : Bytes
  /-- The white space behind the marker. -/
  blanks : Bytes
  /-- The white space in front of the close. -/
  gap : Bytes
  /-- What stands between the end of the comment and the end of the region. -/
  anchor : Bytes
  /-- What stands behind the region. -/
  back : Bytes
  src_eq : src = front ++ (r.opening ++ (r.body ++ (r.closing ++ back)))
  start_eq : r.start = front.length
  opening_eq : r.opening = marker ++ blanks
  closing_eq : r.closing = gap ++ star :: slash :: anchor
  marker_match : Literal.strip? o.marker (marker ++ (blanks ++ (r.body ++ (r.closing ++ back)))) =
    some (blanks ++ (r.body ++ (r.closing ++ back)))
  blanks_blank : blanks.all isBlank = true
  gap_blank : gap.all isBlank = true
  keyword_word : o.keyword.head?.any isWord = true

/-- The first region of a text, cut at its seams, and what follows it. -/
theorem layout_of_find? {o : Options} {src rest : Bytes} {r : Region}
    (h : find? o 0 src = some (r, rest)) : ∃ l : Layout src o r, l.back = rest := by
  unfold find? at h
  obtain ⟨⟨i, after⟩, hmarker, h⟩ := Option.bind_eq_some_iff.1 h
  obtain ⟨⟨inFront, rest'⟩, hclose, h⟩ := Option.bind_eq_some_iff.1 h
  obtain ⟨front, m, rfl, rfl, hm⟩ := Literal.exists_of_find? hmarker
  obtain ⟨marker, rfl, -⟩ := Literal.exists_of_strip? hm
  obtain ⟨blanks, hblanks, hblank⟩ := exists_skipBlanks after
  obtain ⟨close, hinner, hread⟩ := exists_of_findClose? hclose
  obtain ⟨⟨anchor, rfl⟩, hword⟩ := exists_of_readClose? hread
  have hgap := (List.take_append_drop
    (inFront.length - (inFront.reverse.takeWhile isBlank).length) inFront).symm
  have hgapBlank := Bytes.all_drop_trailing isBlank inFront
  dsimp only at h
  generalize inFront.take (inFront.length - (inFront.reverse.takeWhile isBlank).length) = body
    at h hgap
  generalize inFront.drop (inFront.length - (inFront.reverse.takeWhile isBlank).length) = gap
    at hgap hgapBlank
  rw [hgap, List.append_assoc] at hinner
  rw [hinner] at h hblanks
  -- the lengths that the search computes with are those of the parts
  have hopening : ((front ++ (marker ++ after)).drop front.length).take
      ((front ++ (marker ++ after)).length - front.length -
        (body ++ (gap ++ star :: slash :: (anchor ++ rest'))).length) = marker ++ blanks := by
    rw [List.drop_left, hblanks, ← List.append_assoc marker blanks]
    apply List.take_left'
    simp only [List.length_append]
    omega
  have hclosing : (gap ++ star :: slash :: (anchor ++ rest')).take
      ((gap ++ star :: slash :: (anchor ++ rest')).length - rest'.length)
      = gap ++ star :: slash :: anchor := by
    rw [← List.cons_append, ← List.cons_append, ← List.append_assoc gap]
    apply List.take_left'
    simp only [List.length_append]
    omega
  rw [hopening, List.drop_left, hclosing, Nat.zero_add] at h
  cases h
  have hclose : gap ++ star :: slash :: anchor ++ rest = gap ++ star :: slash :: (anchor ++ rest) := by
    rw [List.append_assoc, List.cons_append, List.cons_append]
  refine ⟨⟨front, marker, blanks, gap, anchor, rest, ?_, rfl, rfl, rfl, ?_, hblank, hgapBlank, hword⟩,
    rfl⟩
  · show front ++ (marker ++ after) = front ++ (marker ++ blanks ++ (body ++ _))
    rw [hclose, List.append_assoc, ← hblanks]
  · show Literal.strip? o.marker (marker ++ (blanks ++ (body ++ _))) = some (blanks ++ (body ++ _))
    rw [hclose, ← hblanks]
    exact hm

/-- The body of a region does not start with white space. -/
theorem not_isBlank_of_head?_body {o : Options} {i : Nat} {src rest : Bytes} {r : Region}
    (h : find? o i src = some (r, rest)) : ∀ b ∈ r.body.head?, isBlank b = false := by
  unfold find? at h
  obtain ⟨⟨j, after⟩, -, h⟩ := Option.bind_eq_some_iff.1 h
  obtain ⟨⟨inFront, rest'⟩, hclose, h⟩ := Option.bind_eq_some_iff.1 h
  obtain ⟨close, hinner, -⟩ := exists_of_findClose? hclose
  cases h
  intro b hb
  obtain ⟨t, ht⟩ := List.head?_eq_some_iff.1 hb
  have hpre : b :: t <+: Group.skipBlanks after := by
    rw [hinner, ← ht]
    exact (List.take_prefix _ inFront).trans (List.prefix_append inFront close)
  obtain ⟨u, hu⟩ := hpre
  exact not_isBlank_of_skipBlanks hu.symm

/-- The only region of a file is the first one. -/
theorem exists_find?_of_locate {src : Bytes} {o : Options} {r : Region} (h : locate src o = .ok r) :
    ∃ rest, find? o 0 src = some (r, rest) := by
  unfold locate at h
  split at h
  · simp at h
  · cases hfind : find? o 0 src with
    | none => simp [hfind] at h
    | some found =>
      rw [hfind] at h
      dsimp only at h
      split at h
      · cases h
        exact ⟨_, rfl⟩
      · simp at h

/-- Every region that is found has a layout. -/
theorem layout_of_locate {src : Bytes} {o : Options} {r : Region} (h : locate src o = .ok r) :
    Nonempty (Layout src o r) := by
  obtain ⟨rest, hfind⟩ := exists_find?_of_locate h
  obtain ⟨l, -⟩ := layout_of_find? hfind
  exact ⟨l⟩

end Spotlight.Region
