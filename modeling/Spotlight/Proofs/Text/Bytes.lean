import Spotlight.Text.Bytes

/-!
# Parts of a text

* `Bytes.between` — the part of a text between two offsets;
* `Bytes.all_drop_trailing`, `Bytes.not_of_getLast?_trailing` — the longest run of bytes of a class at the end of a
  text, cut off by its length;
* `Bytes.contains_iff`, `Bytes.find?_eq_some_iff` — whether a literal occurs in a text, and where first.
-/

namespace Spotlight.Bytes

/-! ### Cutting at offsets -/

theorem getElem?_of_drop {s rest : Bytes} {i : Nat} {b : UInt8} (h : s.drop i = b :: rest) : s[i]? = some b := by
  rw [← List.head?_drop, h]
  rfl

theorem drop_add_of_drop {s x rest : Bytes} {i : Nat} (h : s.drop i = x ++ rest) : s.drop (i + x.length) = rest := by
  rw [← List.drop_drop, h, List.drop_left]

theorem drop_of_drop {s x : Bytes} {i j : Nat} (h : s.drop i = x) (hij : i ≤ j) : s.drop j = x.drop (j - i) := by
  rw [← h, List.drop_drop, Nat.add_sub_cancel' hij]

/-- The part of a text between two offsets. -/
def between (s : Bytes) (i j : Nat) : Bytes := (s.drop i).take (j - i)

theorem drop_eq_between_append (s : Bytes) {i j : Nat} (h : i ≤ j) : s.drop i = between s i j ++ s.drop j := by
  have hrest : s.drop j = (s.drop i).drop (j - i) := by
    rw [List.drop_drop]
    congr 1
    omega
  rw [hrest, between, List.take_append_drop]

theorem length_between {s : Bytes} {i j : Nat} (h : i ≤ j) (hj : j ≤ s.length) :
    (between s i j).length = j - i := by
  rw [between, List.length_take, List.length_drop]
  omega

theorem between_append_between (s : Bytes) {i j k : Nat} (hij : i ≤ j) (hjk : j ≤ k) :
    between s i j ++ between s j k = between s i k := by
  have hrest : s.drop j = (s.drop i).drop (j - i) := by
    rw [List.drop_drop]
    congr 1
    omega
  have hsize : k - i = (j - i) + (k - j) := by omega
  rw [between, between, between, hrest, hsize, List.take_add]

/-! ### Runs of bytes of a class -/

theorem drop_length_takeWhile (p : UInt8 → Bool) (s : Bytes) :
    s.drop (s.takeWhile p).length = s.dropWhile p := by
  conv => lhs; arg 2; rw [← List.takeWhile_append_dropWhile (p := p) (l := s)]
  exact List.drop_left

theorem takeWhile_congr {p q : UInt8 → Bool} {s : Bytes} (h : ∀ b ∈ s, p b = q b) : s.takeWhile p = s.takeWhile q := by
  induction s with
  | nil => rfl
  | cons b s ih =>
    have hrest := ih fun c hc => h c (List.mem_cons_of_mem b hc)
    rw [List.takeWhile_cons, List.takeWhile_cons, h b List.mem_cons_self, hrest]

/-- A run reaches at least as far as one that starts in front of it. -/
theorem takeWhile_drop_le (p : UInt8 → Bool) (s : Bytes) (n : Nat) :
    (s.takeWhile p).length ≤ n + ((s.drop n).takeWhile p).length := by
  induction n generalizing s with
  | zero => exact Nat.le_add_left _ 0
  | succ n ih =>
    cases s with
    | nil => exact Nat.zero_le _
    | cons b s =>
      have hrest := ih s
      rw [List.drop_succ_cons, List.takeWhile_cons]
      split
      · rw [List.length_cons]
        omega
      · exact Nat.zero_le _

/-- The run of white space at the end of a text is told by the byte in front of it. -/
theorem takeWhile_reverse_append {p : UInt8 → Bool} {x y : Bytes} (hy : y.all p = true)
    (hx : ∀ b ∈ x.getLast?, p b = false) : ((x ++ y).reverse.takeWhile p).length = y.length := by
  have hrest : x.reverse.takeWhile p = [] := by
    cases hrev : x.reverse with
    | nil => rfl
    | cons b t =>
      have hlast : x.getLast? = some b := by rw [← List.head?_reverse, hrev, List.head?_cons]
      rw [List.takeWhile_cons, hx b hlast]
      rfl
  have hrun : ∀ b ∈ y.reverse, p b = true := fun b hb => List.all_eq_true.1 hy b (List.mem_reverse.1 hb)
  rw [List.reverse_append, List.takeWhile_append_of_pos hrun, hrest, List.append_nil, List.length_reverse]

/-- The longest run at the end of a text is a run. -/
theorem all_drop_trailing (p : UInt8 → Bool) (s : Bytes) :
    (s.drop (s.length - (s.reverse.takeWhile p).length)).all p = true := by
  have hrun : s.drop (s.length - (s.reverse.takeWhile p).length) = (s.reverse.takeWhile p).reverse := by
    calc s.drop (s.length - (s.reverse.takeWhile p).length)
        = (s.reverse.take (s.reverse.takeWhile p).length).reverse := by
          rw [List.reverse_take, List.reverse_reverse, List.length_reverse]
      _ = (s.reverse.takeWhile p).reverse := by
          rw [← List.prefix_iff_eq_take.1 (List.takeWhile_prefix p)]
  rw [hrun, List.all_reverse]
  exact List.all_takeWhile

/-- The byte in front of the longest run at the end of a text does not belong to it. -/
theorem not_of_getLast?_trailing (p : UInt8 → Bool) (s : Bytes) :
    ∀ b ∈ (s.take (s.length - (s.reverse.takeWhile p).length)).getLast?, p b = false := by
  have hle : (s.reverse.takeWhile p).length ≤ s.length := by
    have hle := (List.takeWhile_prefix (l := s.reverse) p).length_le
    rwa [List.length_reverse] at hle
  have hrest : (s.take (s.length - (s.reverse.takeWhile p).length)).reverse = s.reverse.dropWhile p := by
    rw [List.reverse_take, Nat.sub_sub_self hle]
    exact drop_length_takeWhile p s.reverse
  intro b hb
  rw [← List.head?_reverse, hrest] at hb
  have hhead : (s.reverse.dropWhile p).head? = some b := hb
  exact Bool.eq_false_iff.2 (by simpa [hhead] using List.head?_dropWhile_not p s.reverse)

/-! ### Occurrences -/

theorem startsWith_iff {s lit : Bytes} : startsWith s lit = true ↔ lit <+: s := by
  rw [startsWith, Option.isSome_iff_exists]
  constructor
  · intro h
    obtain ⟨rest, hrest⟩ := h
    exact ⟨rest, (eq_append_of_strip? hrest).symm⟩
  · intro h
    obtain ⟨rest, rfl⟩ := h
    exact ⟨rest, strip?_append lit rest⟩

theorem contains_iff {s lit : Bytes} : contains s lit = true ↔ lit <:+: s := by
  rw [contains]
  fun_induction find? lit s with
  | case1 hempty => simp [List.isEmpty_iff.1 hempty]
  | case2 hne => simpa using fun h => hne (by simp [h])
  | case3 b s hstarts => simpa using (startsWith_iff.1 hstarts).isInfix
  | case4 b s hnot ih =>
    rw [List.infix_cons_iff, ← startsWith_iff, Option.isSome_map, ih]
    simp [hnot]

/-- A literal stands where it is found, and nowhere in front of that. -/
theorem exists_of_find? {lit s : Bytes} {i : Nat} (h : find? lit s = some i) :
    (∃ x y, s = x ++ (lit ++ y) ∧ x.length = i) ∧ ∀ u v, s = u ++ (lit ++ v) → i ≤ u.length := by
  fun_induction find? lit s generalizing i with
  | case1 hempty =>
    rw [List.isEmpty_iff.1 hempty, ← Option.some.inj h]
    exact ⟨⟨[], [], rfl, rfl⟩, fun u v _ => Nat.zero_le _⟩
  | case2 => simp at h
  | case3 b s hstarts =>
    obtain ⟨rest, hrest⟩ := startsWith_iff.1 hstarts
    rw [← Option.some.inj h]
    exact ⟨⟨[], rest, hrest.symm, rfl⟩, fun u v _ => Nat.zero_le _⟩
  | case4 b s hnot ih =>
    obtain ⟨j, hj, rfl⟩ := Option.map_eq_some_iff.1 h
    obtain ⟨⟨x, y, rfl, rfl⟩, hfirst⟩ := ih hj
    refine ⟨⟨b :: x, y, rfl, rfl⟩, ?_⟩
    intro u v huv
    cases u with
    | nil => exact absurd (startsWith_iff.2 ⟨v, huv.symm⟩) hnot
    | cons c u => exact Nat.succ_le_succ (hfirst u v (List.cons.inj huv).2)

/-- **The first occurrence of a literal is found.** -/
theorem find?_eq_some_iff {lit s : Bytes} {i : Nat} : find? lit s = some i ↔
    (∃ x y, s = x ++ (lit ++ y) ∧ x.length = i) ∧ ∀ u v, s = u ++ (lit ++ v) → i ≤ u.length := by
  refine ⟨exists_of_find?, ?_⟩
  intro h
  obtain ⟨⟨x, y, hs, hx⟩, hfirst⟩ := h
  have hin : contains s lit = true := contains_iff.2 ⟨x, y, by rw [hs, List.append_assoc]⟩
  obtain ⟨j, hj⟩ := Option.isSome_iff_exists.1 hin
  obtain ⟨⟨x', y', hs', hx'⟩, hfirst'⟩ := exists_of_find? hj
  have hle := hfirst x' y' hs'
  have hge := hfirst' x y hs
  rw [hj]
  congr 1
  omega

/-- An occurrence of a literal lies in the text. -/
theorem find?_bounds {lit s : Bytes} {i : Nat} (h : find? lit s = some i) :
    i + lit.length ≤ s.length := by
  obtain ⟨⟨x, y, rfl, rfl⟩, -⟩ := exists_of_find? h
  simp only [List.length_append]
  omega

theorem not_infix_of_find? {lit s : Bytes} (h : find? lit s = none) : ¬ lit <:+: s := by
  rw [← contains_iff, contains, h]
  exact Bool.false_ne_true

/-- A literal stands where it is found, and not in the text in front of that. -/
theorem eq_append_of_find? {lit s : Bytes} {n : Nat} (hlit : lit ≠ []) (h : find? lit s = some n) :
    ∃ x y, s = x ++ (lit ++ y) ∧ x.length = n ∧ ¬ lit <:+: x := by
  obtain ⟨⟨x, y, hs, hx⟩, hfirst⟩ := exists_of_find? h
  refine ⟨x, y, hs, hx, ?_⟩
  rintro ⟨u, v, huv⟩
  have hle : n ≤ u.length := hfirst u (v ++ (lit ++ y)) (by rw [hs, ← huv]; simp only [List.append_assoc])
  have hlen := congrArg List.length huv
  have hpos := List.length_pos_iff.2 hlit
  simp only [List.length_append] at hlen
  omega

/-- A literal that ends a text and stands nowhere else in it is found there, whatever follows. -/
theorem find?_append {lit x : Bytes} (honce : ∀ u v, x ++ lit = u ++ (lit ++ v) → v = []) (y : Bytes) :
    find? lit (x ++ (lit ++ y)) = some x.length := by
  refine find?_eq_some_iff.2 ⟨⟨x, y, rfl, rfl⟩, ?_⟩
  intro u v huv
  apply Nat.le_of_not_lt
  intro hlt
  -- an occurrence in front of that one would lie in the same text
  have hpre : u ++ lit <+: x ++ lit := by
    have hlong : u ++ lit <+: (x ++ lit) ++ y := by
      rw [List.append_assoc, huv, ← List.append_assoc]
      exact List.prefix_append _ v
    exact List.prefix_of_prefix_length_le hlong (List.prefix_append _ y) (by simp; omega)
  obtain ⟨v', hv'⟩ := hpre
  have hnil := honce u v' (by rw [← hv', List.append_assoc])
  have hlen := congrArg List.length hv'
  rw [hnil] at hlen
  simp only [List.length_append, List.length_nil] at hlen
  omega

end Spotlight.Bytes
