import Spotlight.Proofs.Text.Rune
import Spotlight.Text.Blank

/-!
# Trimming white space

What trimming takes away, and where it stops:

* `Blank.isBlank` — is a text white space and nothing else?
* `Blank.exists_trimEnd` — what is trimmed off the end of a text is white space;
* `Blank.trimStart_of_ascii` — trimming in front of an ASCII byte that is no white space;
* `Blank.trimEnd_append` — white space at the end does not matter;
* `Blank.not_isSpace_of_getLast?_trimEnd` — a text that is trimmed does not end with white space.
-/

namespace Spotlight

/-! ### Characters that are read again -/

/-- The characters behind others are read the same on their own. -/
theorem Rune.ofBytes_flatMap_of_append {s : Bytes} {front back : List Rune}
    (h : ofBytes s = front ++ back) : ofBytes (back.flatMap raw) = back := by
  induction front generalizing s with
  | nil => rw [← List.nil_append back, ← h, flatMap_raw_ofBytes]
  | cons r front ih =>
    cases s with
    | nil => simp at h
    | cons b s =>
      rw [ofBytes_cons, List.cons_append, List.cons.injEq] at h
      exact ih h.2

namespace Blank

/-- Is the text white space and nothing else? -/
def isBlank (s : Bytes) : Bool := (Rune.ofBytes s).all fun r => isSpace r.code

/-- What is trimmed off the end of a text is white space. -/
theorem exists_trimEnd (s : Bytes) : ∃ w, s = trimEnd s ++ w ∧ isBlank w = true := by
  let p : Rune → Bool := fun r => isSpace r.code
  let ws := ((Rune.ofBytes s).reverse.takeWhile p).reverse
  have hcut : Rune.ofBytes s = ((Rune.ofBytes s).reverse.dropWhile p).reverse ++ ws := by
    rw [← List.reverse_append, List.takeWhile_append_dropWhile, List.reverse_reverse]
  have hspace : ∀ r ∈ ws, isSpace r.code = true := by
    intro r hr
    rw [List.mem_reverse] at hr
    exact List.all_eq_true.1 List.all_takeWhile r hr
  refine ⟨ws.flatMap Rune.raw, ?_, ?_⟩
  · rw [trimEnd, ← List.flatMap_append, ← hcut, Rune.flatMap_raw_ofBytes]
  · rw [isBlank, Rune.ofBytes_flatMap_of_append hcut]
    exact List.all_eq_true.2 hspace

/-- Trimming stops in front of an ASCII byte that is no white space. -/
theorem trimStart_of_ascii {w t : Bytes} {b : UInt8} (hw : ∀ c ∈ w, c < 0x80 ∧ isSpace c.toNat = true)
    (hb : b < 0x80) (hn : isSpace b.toNat = false) : trimStart (w ++ b :: t) = b :: t := by
  have hread : Rune.ofBytes (w ++ b :: t) = w.map (fun c => ⟨c.toNat, [c]⟩) ++ Rune.ofBytes (b :: t) := by
    rw [Rune.ofBytes_append w (by simpa using hb), Rune.ofBytes_ascii fun c hc => (hw c hc).1]
  have hdrop : (Rune.ofBytes (w ++ b :: t)).dropWhile (fun r => isSpace r.code)
      = Rune.ofBytes (b :: t) := by
    rw [hread, List.dropWhile_append_of_pos]
    · rw [Rune.ofBytes_cons, Rune.first_of_ascii hb, List.dropWhile_cons_of_neg (by simp [hn])]
    · intro r hr
      obtain ⟨c, hc, rfl⟩ := List.mem_map.1 hr
      exact (hw c hc).2
  rw [trimStart, hdrop, Rune.flatMap_raw_ofBytes]

/-- White space in ASCII at the end of a text is trimmed off together with what stands in front. -/
theorem trimEnd_append {x y : Bytes} (hy : ∀ c ∈ y, c < 0x80 ∧ isSpace c.toNat = true) :
    trimEnd (x ++ y) = trimEnd x := by
  have hhead : ∀ c ∈ y.head?, c < 0x80 := fun c hc => (hy c (List.mem_of_mem_head? hc)).1
  have hread : Rune.ofBytes (x ++ y) = Rune.ofBytes x ++ y.map fun c => ⟨c.toNat, [c]⟩ := by
    rw [Rune.ofBytes_append x hhead, Rune.ofBytes_ascii fun c hc => (hy c hc).1]
  rw [trimEnd, trimEnd, hread, List.reverse_append, List.dropWhile_append_of_pos]
  intro r hr
  obtain ⟨c, hc, rfl⟩ := List.mem_map.1 (List.mem_reverse.1 hr)
  exact (hy c hc).2

/-- An ASCII byte that is no white space stays at the head of a text when its end is trimmed. -/
theorem trimEnd_cons_of_ascii {t : Bytes} {b : UInt8} (hb : b < 0x80) (hn : isSpace b.toNat = false) :
    trimEnd (b :: t) = b :: trimEnd t := by
  let p : Rune → Bool := fun r => isSpace r.code
  let first : Rune := ⟨b.toNat, [b]⟩
  have hread : Rune.ofBytes (b :: t) = first :: Rune.ofBytes t := by
    rw [Rune.ofBytes_cons, Rune.first_of_ascii hb]
    rfl
  have hdrop : ((Rune.ofBytes t).reverse ++ [first]).dropWhile p
      = (Rune.ofBytes t).reverse.dropWhile p ++ [first] := by
    have hstop : [first].dropWhile p = [first] := List.dropWhile_cons_of_neg (by simp [p, first, hn])
    rw [List.dropWhile_append, hstop]
    split
    · rename_i hempty
      rw [List.isEmpty_iff.1 hempty, List.nil_append]
    · rfl
  rw [trimEnd, hread, List.reverse_cons, hdrop, List.reverse_append]
  rfl

/-- A text that is trimmed does not end with white space in ASCII. -/
theorem not_isSpace_of_getLast?_trimEnd {s : Bytes} {b : UInt8} (hb : b ∈ (trimEnd s).getLast?) (hlt : b < 0x80) :
    isSpace b.toNat = false := by
  let p : Rune → Bool := fun r => isSpace r.code
  have htrim : trimEnd s = ((Rune.ofBytes s).reverse.dropWhile p).reverse.flatMap Rune.raw := rfl
  cases hrest : (Rune.ofBytes s).reverse.dropWhile p with
  | nil =>
    rw [htrim, hrest] at hb
    simp at hb
  | cons r rest =>
    have hr : p r = false := by
      have hhead := List.head?_dropWhile_not p (Rune.ofBytes s).reverse
      rw [hrest] at hhead
      simpa using hhead
    have hmem : r ∈ Rune.ofBytes s := by
      have hin : r ∈ (Rune.ofBytes s).reverse.dropWhile p := by
        rw [hrest]
        exact List.mem_cons_self
      exact List.mem_reverse.1 ((List.dropWhile_suffix p).subset hin)
    obtain ⟨c, t, rfl⟩ := Rune.exists_of_mem_ofBytes hmem
    rw [htrim, hrest, List.reverse_cons, List.flatMap_append, List.flatMap_singleton] at hb
    by_cases hc : c < 0x80
    · rw [Rune.first_of_ascii hc] at hb hr
      rw [List.getLast?_concat, Option.mem_some_iff] at hb
      rw [← hb]
      exact hr
    · rw [Rune.raw_first, List.getLast?_append, List.getLast?_cons, Option.some_or, ← List.getLast?_cons,
        ← Rune.raw_first] at hb
      exact absurd hlt (UInt8.not_lt.2 (Rune.le_of_mem_raw hc (List.mem_of_getLast? hb)))

/-- Nothing but the end of a text is trimmed off. -/
theorem mem_of_mem_trimEnd {s : Bytes} {b : UInt8} (h : b ∈ trimEnd s) : b ∈ s := by
  obtain ⟨w, hw, -⟩ := exists_trimEnd s
  rw [hw]
  exact List.mem_append_left w h

end Blank

end Spotlight
