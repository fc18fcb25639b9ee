import Spotlight.Text.Rune

/-!
# Reading a byte string as characters

Reading loses no byte, and a text can be cut in front of every ASCII byte:

* `Rune.ofBytes_cons`, `Rune.flatMap_raw_ofBytes` — the characters of a text one after the other,
  with all of its bytes;
* `Rune.ofBytes_append` — the characters of a text in front of an ASCII byte;
* `Rune.first_raw_append` — a well-formed character is read the same whatever follows it.
-/

namespace Spotlight.Rune

/-! ### The first character -/

/-- The bytes of the first character are those at the head of the text. -/
theorem raw_first (b : UInt8) (s : Bytes) :
    (first b s).raw = b :: s.take ((first b s).raw.length - 1) := by
  fun_cases first b s <;> rfl

theorem first_of_ascii {b : UInt8} (h : b < 0x80) (s : Bytes) : first b s = ⟨b.toNat, [b]⟩ := by
  unfold first
  rw [if_pos h]

theorem lt_leastSecond {c : UInt8} (h : c < 0x80) (b : UInt8) : c < leastSecond b := by
  unfold leastSecond
  split
  · exact UInt8.lt_trans h (by decide)
  · split
    · exact UInt8.lt_trans h (by decide)
    · exact h

theorem not_isContinuation {c : UInt8} (h : c < 0x80) : isContinuation c = false := by
  simp [isContinuation, UInt8.not_le.2 h]

/-- An ASCII byte belongs to no longer character, so what is read in front of it does not depend on
it. -/
theorem first_append (b : UInt8) (s : Bytes) {y : Bytes} (hy : ∀ c ∈ y.head?, c < 0x80) :
    first b (s ++ y) = first b s := by
  cases y with
  | nil => rw [List.append_nil]
  | cons c y =>
    have hc : c < 0x80 := hy c rfl
    have hleast := lt_leastSecond hc b
    have hcont := not_isContinuation hc
    fun_cases first b s <;> simp [first, *, -UInt8.not_lt]

/-- A character that is well formed is read the same whatever follows its bytes. -/
theorem first_raw_append {b : UInt8} {s : Bytes} (h : (first b s).isMalformed = false) (y : Bytes) :
    first b ((first b s).raw.tail ++ y) = first b s := by
  have hmal : (malformed b).isMalformed ≠ false := by simp [isMalformed, malformed]
  revert h
  fun_cases first b s with
  | case2 | case3 | case4 | case6 | case7 | case9 | case10 => exact fun h => absurd h hmal
  | case1 | case5 | case8 | case11 => intro _; simp [first, *, -UInt8.not_lt]

/-- The first character and what follows it are the whole text. -/
theorem raw_append_drop (b : UInt8) (s : Bytes) :
    (first b s).raw ++ s.drop ((first b s).raw.length - 1) = b :: s := by
  calc (first b s).raw ++ s.drop ((first b s).raw.length - 1)
      = (b :: s.take ((first b s).raw.length - 1)) ++ s.drop ((first b s).raw.length - 1) := by
        rw [← raw_first]
    _ = b :: s := by rw [List.cons_append, List.take_append_drop]

theorem length_raw_le (b : UInt8) (s : Bytes) : (first b s).raw.length - 1 ≤ s.length := by
  have h := congrArg List.length (raw_append_drop b s)
  simp only [List.length_append, List.length_drop, List.length_cons] at h
  omega

theorem le_leastSecond (b : UInt8) : 0x80 ≤ leastSecond b := by
  unfold leastSecond
  split
  · decide
  · split <;> decide

/-- A character that is not ASCII has no ASCII byte. -/
theorem le_of_mem_raw {b c : UInt8} {s : Bytes} (hb : ¬ b < 0x80) (hc : c ∈ (first b s).raw) :
    0x80 ≤ c := by
  have hb' : 0x80 ≤ b := UInt8.not_lt.1 hb
  have hleast : ∀ d : UInt8, ¬ (decide (d < leastSecond b) || decide (greatestSecond b < d)) = true →
      0x80 ≤ d := by
    intro d hd
    simp only [Bool.or_eq_true, decide_eq_true_eq, not_or, UInt8.not_lt] at hd
    exact UInt8.le_trans (le_leastSecond b) hd.1
  have hcont : ∀ d : UInt8, ¬ (!isContinuation d) = true → 0x80 ≤ d := by
    intro d hd
    simp only [Bool.not_eq_true', Bool.not_eq_false, isContinuation, Bool.and_eq_true,
      decide_eq_true_eq] at hd
    exact hd.1
  revert hc
  fun_cases first b s <;> simp only [malformed, List.mem_cons, List.not_mem_nil, or_false] <;> grind

/-- The bytes of the first character behind its first one are not ASCII. -/
theorem le_of_mem_take {b : UInt8} {s : Bytes} :
    ∀ c ∈ s.take ((first b s).raw.length - 1), 0x80 ≤ c := by
  intro c hc
  by_cases hb : b < 0x80
  · rw [first_of_ascii hb] at hc
    simp at hc
  · apply le_of_mem_raw (b := b) (s := s) hb
    rw [raw_first]
    exact List.mem_cons_of_mem b hc

/-! ### All characters -/

theorem ofBytesFrom_eq (skip : Nat) (s : Bytes) : ofBytesFrom skip s = ofBytes (s.drop skip) := by
  induction skip generalizing s with
  | zero => rfl
  | succ skip ih =>
    cases s with
    | nil => rfl
    | cons b s => exact ih s

@[simp] theorem ofBytes_nil : ofBytes [] = [] := rfl

/-- The first character of a text, and the characters behind its bytes. -/
theorem ofBytes_cons (b : UInt8) (s : Bytes) :
    ofBytes (b :: s) = first b s :: ofBytes (s.drop ((first b s).raw.length - 1)) := by
  rw [← ofBytesFrom_eq]
  rfl

/-- Induction over the characters of a text. -/
theorem ofBytes_induction {motive : Bytes → Prop} (nil : motive [])
    (cons : ∀ b s, motive (s.drop ((first b s).raw.length - 1)) → motive (b :: s)) (s : Bytes) :
    motive s := by
  induction hn : s.length using Nat.strongRecOn generalizing s with
  | ind n ih =>
    cases s with
    | nil => exact nil
    | cons b s =>
      apply cons
      apply ih _ _ _ rfl
      rw [← hn, List.length_drop, List.length_cons]
      omega

/-- No byte of a text is lost when it is read. -/
theorem flatMap_raw_ofBytes (s : Bytes) : (ofBytes s).flatMap raw = s := by
  induction s using ofBytes_induction with
  | nil => rfl
  | cons b s ih => rw [ofBytes_cons, List.flatMap_cons, ih, raw_append_drop]

/-- Every character of a text is the first one of some text. -/
theorem exists_of_mem_ofBytes {s : Bytes} {r : Rune} (h : r ∈ ofBytes s) : ∃ b t, r = first b t := by
  induction s using ofBytes_induction with
  | nil => simp at h
  | cons b s ih =>
    rw [ofBytes_cons] at h
    rcases List.mem_cons.1 h with rfl | h
    · exact ⟨b, s, rfl⟩
    · exact ih h

/-- A text can be cut in front of every ASCII byte. -/
theorem ofBytes_append (x : Bytes) {y : Bytes} (hy : ∀ c ∈ y.head?, c < 0x80) :
    ofBytes (x ++ y) = ofBytes x ++ ofBytes y := by
  induction x using ofBytes_induction with
  | nil => rfl
  | cons b x ih =>
    have hle := length_raw_le b x
    rw [List.cons_append, ofBytes_cons, first_append b x hy, List.drop_append_of_le_length hle, ih,
      ofBytes_cons, List.cons_append]

/-- An ASCII text has one character for every byte. -/
theorem ofBytes_ascii {s : Bytes} (h : ∀ b ∈ s, b < 0x80) :
    ofBytes s = s.map fun b => ⟨b.toNat, [b]⟩ := by
  induction s with
  | nil => rfl
  | cons b s ih =>
    rw [ofBytes_cons, first_of_ascii (h b (by simp)), List.map_cons]
    exact congrArg _ (ih fun c hc => h c (by simp [hc]))

end Spotlight.Rune
