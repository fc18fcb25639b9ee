import Spotlight.Proofs.Patch.Reading

/-!
# Applying a diff

The hunks of a diff are applied one after the other: the lines in front of a hunk stay, and the old lines of
the hunk, which must stand where the hunk says, give way to its new ones.

* `Patch.applied?` — the lines after applying hunks, if all of them fit;
* `Patch.applied?_hunks` — the hunks of a script lead from its old to its new lines;
* `Patch.patched?` — the text after applying a diff;
* `Patch.Leads` — a diff that leads from one text to another, and is empty only between equal texts;
* `Patch.leads_unified` — so do the diffs that are shown.
-/

namespace Spotlight.Patch

open Bytes

/-! ### Applying hunks -/

/-- The lines after applying hunks to `old`, which holds the lines of the old text from line `i` on; what
comes of it starts at line `j` of the new text. A hunk must start where it says in both texts, and find its
old lines there. -/
def applied? : (i j : Nat) → List Hunk → (old : List Bytes) → Option (List Bytes)
  | _, _, [], old => some old
  | i, j, h :: hs, old =>
    let gap := h.oldStart - i
    let size := (oldLines h.edits).length
    if i ≤ h.oldStart ∧ h.newStart = j + gap ∧ gap ≤ old.length ∧
        (old.drop gap).take size = oldLines h.edits then
      (applied? (h.oldStart + size) (h.newStart + (newLines h.edits).length) hs (old.drop (gap + size))).map
        fun rest => old.take gap ++ newLines h.edits ++ rest
    else none

/-- A hunk behind some lines that stay. -/
theorem applied?_cons {i j : Nat} {kept rest rest' : List Bytes} {es : List Edit} {hs : List Hunk}
    (h : applied? (i + kept.length + (oldLines es).length) (j + kept.length + (newLines es).length) hs rest =
      some rest') :
    applied? i j (⟨i + kept.length, j + kept.length, es⟩ :: hs) (kept ++ oldLines es ++ rest) =
      some (kept ++ newLines es ++ rest') := by
  have hgap : i + kept.length - i = kept.length := Nat.add_sub_cancel_left i kept.length
  have hdrop : (kept ++ oldLines es ++ rest).drop kept.length = oldLines es ++ rest := by
    rw [List.append_assoc, List.drop_left]
  have htake : (kept ++ oldLines es ++ rest).take kept.length = kept := by
    rw [List.append_assoc, List.take_left]
  rw [applied?]
  dsimp only
  rw [hgap, if_pos]
  · rw [← List.drop_drop, hdrop, List.drop_left, h, htake]
    rfl
  · refine ⟨Nat.le_add_right i _, rfl, ?_, ?_⟩
    · simp only [List.length_append]
      omega
    · rw [hdrop, List.take_left]

theorem oldLines_reverse (es : List Edit) : oldLines es.reverse = (oldLines es).reverse :=
  List.filterMap_reverse

theorem newLines_reverse (es : List Edit) : newLines es.reverse = (newLines es).reverse :=
  List.filterMap_reverse

/-- The hunks among marked edits lead from the old lines of all edits to the new ones, if every edit that is
not marked keeps its line. The invariant: `kept` are the lines passed since the last hunk was closed, and
`pending` the edits of the hunk that is open. -/
theorem applied?_hunksFrom {marked : List (Edit × Bool)}
    (hmarked : ∀ p ∈ marked, p.1.isChange = true → p.2 = true) :
    ∀ (i j : Nat) (kept : List Bytes) (pending : List Edit),
      applied? i j (hunksFrom (i + kept.length) (j + kept.length) pending marked)
        (kept ++ oldLines pending.reverse ++ oldLines (marked.map Prod.fst)) =
      some (kept ++ newLines pending.reverse ++ newLines (marked.map Prod.fst)) := by
  induction marked with
  | nil =>
    intro i j kept pending
    cases pending with
    | nil => rfl
    | cons e pending =>
      rw [hunksFrom]
      have hdone : applied? (i + kept.length + (oldLines (e :: pending).reverse).length)
          (j + kept.length + (newLines (e :: pending).reverse).length) [] [] = some [] := rfl
      exact applied?_cons hdone
  | cons p marked ih =>
    have hrest : ∀ p ∈ marked, p.1.isChange = true → p.2 = true := fun q hq =>
      hmarked q (List.mem_cons_of_mem p hq)
    obtain ⟨e, shown⟩ := p
    intro i j kept pending
    have hold : oldLines (((e, shown) :: marked).map Prod.fst) =
        oldLines [e] ++ oldLines (marked.map Prod.fst) := by
      rw [← oldLines_append]
      rfl
    have hnew : newLines (((e, shown) :: marked).map Prod.fst) =
        newLines [e] ++ newLines (marked.map Prod.fst) := by
      rw [← newLines_append]
      rfl
    rw [hold, hnew]
    cases shown with
    | true =>
      have hmore := ih hrest i j kept (e :: pending)
      rw [List.reverse_cons, oldLines_append, newLines_append] at hmore
      simp only [List.append_assoc] at hmore ⊢
      exact hmore
    | false =>
      -- an edit that is not shown keeps its line
      obtain ⟨line, rfl⟩ : ∃ line, e = .keep line := by
        have hno : e.isChange ≠ true := fun hchange =>
          absurd (hmarked (e, false) List.mem_cons_self hchange) (by simp)
        cases e with
        | keep line => exact ⟨line, rfl⟩
        | drop line => exact absurd rfl hno
        | add line => exact absurd rfl hno
      have hkeepOld : oldLines [Edit.keep line] = [line] := rfl
      have hkeepNew : newLines [Edit.keep line] = [line] := rfl
      have hlenOld : (oldLines (Edit.keep line :: pending)).length = (oldLines pending.reverse).length + 1 := by
        rw [length_oldLines_cons, oldLines_reverse, List.length_reverse, hkeepOld, List.length_singleton,
          Nat.add_comm]
      have hlenNew : (newLines (Edit.keep line :: pending)).length = (newLines pending.reverse).length + 1 := by
        rw [length_newLines_cons, newLines_reverse, List.length_reverse, hkeepNew, List.length_singleton,
          Nat.add_comm]
      rw [hunksFrom, hlenOld, hlenNew, hkeepOld, hkeepNew]
      cases pending with
      | nil =>
        have hmore := ih hrest i j (kept ++ [line]) []
        have hnoneOld : oldLines ([] : List Edit).reverse = [] := rfl
        have hnoneNew : newLines ([] : List Edit).reverse = [] := rfl
        rw [List.length_append, List.length_singleton, ← Nat.add_assoc, ← Nat.add_assoc] at hmore
        simp only [hnoneOld, hnoneNew, List.append_nil, List.append_assoc] at hmore ⊢
        exact hmore
      | cons f pending =>
        have hmore := ih hrest (i + kept.length + (oldLines (f :: pending).reverse).length)
          (j + kept.length + (newLines (f :: pending).reverse).length) [line] []
        exact applied?_cons hmore

/-- Every change is marked, whatever else is. -/
theorem isChange_of_mem_zip {es : List Edit} {left : Nat} {others : List Bool} {p : Edit × Bool}
    (hmem : p ∈ es.zip (List.zipWith (· || ·) (afterChange left es) others)) (hchange : p.1.isChange = true) :
    p.2 = true := by
  induction es generalizing left others with
  | nil => simp at hmem
  | cons e es ih =>
    cases others with
    | nil => simp at hmem
    | cons other others =>
      by_cases he : e.isChange = true
      · rw [afterChange, if_pos he, List.zipWith_cons_cons, List.zip_cons_cons] at hmem
        rcases List.mem_cons.1 hmem with rfl | hmem
        · rfl
        · exact ih hmem
      · rw [afterChange, if_neg he, List.zipWith_cons_cons, List.zip_cons_cons] at hmem
        rcases List.mem_cons.1 hmem with rfl | hmem
        · exact absurd hchange he
        · exact ih hmem

theorem length_afterChange (left : Nat) (es : List Edit) : (afterChange left es).length = es.length := by
  induction es generalizing left with
  | nil => rfl
  | cons e es ih =>
    rw [afterChange]
    split
    · rw [List.length_cons, List.length_cons, ih]
    · rw [List.length_cons, List.length_cons, ih]

theorem length_nearChange (es : List Edit) : (nearChange es).length = es.length := by
  rw [nearChange, List.length_zipWith, List.length_reverse, length_afterChange, length_afterChange,
    List.length_reverse, Nat.min_self]

/-- **The hunks of a script lead from its old to its new lines.** -/
theorem applied?_hunks (es : List Edit) : applied? 0 0 (hunks es) (oldLines es) = some (newLines es) := by
  have hfst : (es.zip (nearChange es)).map Prod.fst = es :=
    List.map_fst_zip (Nat.le_of_eq (length_nearChange es).symm)
  have hmarked : ∀ p ∈ es.zip (nearChange es), p.1.isChange = true → p.2 = true := fun p hp hchange =>
    isChange_of_mem_zip hp hchange
  have happly := applied?_hunksFrom hmarked 0 0 [] []
  rw [hfst] at happly
  exact happly

/-! ### Applying diffs -/

/-- The text after applying a diff for the file at `path` to `old`. -/
def patched? (path patch old : Bytes) : Option Bytes :=
  (read? patch).bind fun (path', hs) =>
    if path' = path then (applied? 0 0 hs (lines old)).map (joinWith [lf]) else none

/-- A diff that leads from `old` to `new`: it is empty if and only if there is nothing to change, and else its
hunks can be read and lead from the lines of `old` to those of `new`, and so from `old` to `new`. -/
structure Leads (path old new patch : Bytes) : Prop where
  eq_nil_iff : patch = [] ↔ old = new
  exists_hunks : old ≠ new → ∃ hs, read? patch = some (path, hs) ∧
    applied? 0 0 hs (lines old) = some (lines new)
  patched_eq : old ≠ new → patched? path patch old = some new

/-- **A diff leads from the old text to the new one.** -/
theorem leads_unified {path old new : Bytes} (hpath : lf ∉ path) :
    Leads path old new (unified path old new) := by
  have happly : applied? 0 0 (hunks (script (lines old) (lines new))) (lines old) = some (lines new) := by
    have h := applied?_hunks (script (lines old) (lines new))
    rw [oldLines_script, newLines_script] at h
    exact h
  refine ⟨?_, ?_, ?_⟩
  · constructor
    · intro hnil
      by_cases hsame : old = new
      · exact hsame
      · have hhead : (unified path old new).head? = some 0x2d := by
          rw [unified, if_neg hsame]
          rfl
        rw [hnil] at hhead
        exact absurd hhead (by simp)
    · intro hsame
      rw [unified, if_pos hsame]
  · intro hne
    exact ⟨_, read?_unified hpath hne, happly⟩
  · intro hne
    rw [patched?, read?_unified hpath hne]
    dsimp only [Option.bind_some]
    rw [if_pos rfl, happly]
    show some (joinWith [lf] (lines new)) = some new
    rw [joinWith_lines]

end Spotlight.Patch
