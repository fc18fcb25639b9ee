import Spotlight.Text.Bytes

/-!
# The pieces of a text

That cutting a text and putting it together again cancel each other, and how a text is cut at its separators, from the
first one on, is in the library (`List.splitOn_intercalate`, `List.intercalate_splitOn`, `List.splitOn_append_cons_self`).

* `Bytes.not_mem_of_mem_splitOn` — no piece has the separator in it;
* `Bytes.splitOn_append_left` — a text without separators in front of others goes into their first piece;
* `Bytes.splitOn_replaceByte` — a text that is written with more than the separator between its pieces.
-/

namespace Spotlight.Bytes

theorem not_mem_of_mem_splitOn {sep : UInt8} {x piece : Bytes} (h : piece ∈ splitOn sep x) :
    sep ∉ piece := by
  induction x generalizing piece with
  | nil =>
    rw [List.mem_singleton.1 h]
    exact List.not_mem_nil
  | cons b x ih =>
    obtain ⟨first, more, hx⟩ := List.exists_cons_of_ne_nil (List.splitOn_ne_nil sep x)
    rw [splitOn, List.splitOn_cons_eq_if_modifyHead, hx, List.modifyHead_cons] at h
    split at h
    · rcases List.mem_cons.1 h with rfl | h
      · exact List.not_mem_nil
      · exact ih (by rw [splitOn, hx]; exact h)
    · rename_i hb
      rw [beq_iff_eq] at hb
      rcases List.mem_cons.1 h with rfl | h
      · rw [List.mem_cons, not_or]
        exact ⟨Ne.symm hb, ih (by rw [splitOn, hx]; exact List.mem_cons_self)⟩
      · exact ih (by rw [splitOn, hx]; exact List.mem_cons_of_mem _ h)

/-- What stands in front of a text without a separator goes into its first piece. -/
theorem splitOn_append_left {sep : UInt8} {x s piece : Bytes} {more : List Bytes} (hx : sep ∉ x)
    (hs : splitOn sep s = piece :: more) : splitOn sep (x ++ s) = (x ++ piece) :: more := by
  induction x with
  | nil => exact hs
  | cons b x ih =>
    rw [List.mem_cons, not_or] at hx
    rw [splitOn] at ih ⊢
    rw [List.cons_append, List.splitOn_cons_eq_if_modifyHead, if_neg (by simpa using Ne.symm hx.1), ih hx.2]
    rfl

/-- Where every separator is followed by a text, that text stands in front of all pieces but the first. -/
theorem splitOn_replaceByte {sep : UInt8} {x s piece : Bytes} {more : List Bytes} (hx : sep ∉ x)
    (hs : splitOn sep s = piece :: more) :
    splitOn sep (replaceByte sep (sep :: x) s) = piece :: more.map (x ++ ·) := by
  induction s generalizing piece more with
  | nil =>
    cases hs
    rfl
  | cons b s ih =>
    obtain ⟨next, others, hrest⟩ := List.exists_cons_of_ne_nil (List.splitOn_ne_nil sep s)
    have hreplaced := ih hrest
    rw [splitOn, List.splitOn_cons_eq_if_modifyHead, hrest] at hs
    by_cases hb : b = sep
    · rw [if_pos (by simpa using hb)] at hs
      cases hs
      have htext : replaceByte sep (sep :: x) (b :: s) = sep :: (x ++ replaceByte sep (sep :: x) s) := by
        rw [replaceByte, List.flatMap_cons, if_pos hb]
        rfl
      have hmore := splitOn_append_left hx hreplaced
      rw [splitOn] at hmore ⊢
      rw [htext, List.splitOn_cons_eq_if_modifyHead, if_pos (beq_self_eq_true sep), hmore, List.map_cons]
    · rw [if_neg (by simpa using hb)] at hs
      cases hs
      have htext : replaceByte sep (sep :: x) (b :: s) = b :: replaceByte sep (sep :: x) s := by
        rw [replaceByte, List.flatMap_cons, if_neg hb]
        rfl
      rw [splitOn] at hreplaced ⊢
      rw [htext, List.splitOn_cons_eq_if_modifyHead, if_neg (by simpa using hb), hreplaced]
      rfl

end Spotlight.Bytes
