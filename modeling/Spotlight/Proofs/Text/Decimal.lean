import Spotlight.Text.Bytes

/-!
# Numbers in decimal

* `Bytes.ofNat_induction` — the digits of a number, from the last one on;
* `Bytes.digitsValue_ofNat` — the digits of a number have its value;
* `Bytes.head?_ofNat` — they start with a zero only if that is all.
-/

namespace Spotlight.Bytes

/-- The digit of a number below ten. -/
def digit (n : Nat) : UInt8 := (0x30 + n).toUInt8

theorem isDigit_digit : ∀ {n : Nat}, n < 10 → isDigit (digit n) = true := by decide

theorem toNat_digit : ∀ {n : Nat}, n < 10 → (digit n).toNat - 0x30 = n := by decide

/-- The digits of a number are those of its characters. -/
theorem ofNat_eq_utf8Encode (n : Nat) : ofNat n = (Nat.toDigits 10 n).utf8Encode.data.toList := by
  rw [ofNat, ofString, Nat.repr_eq_ofList_toDigits, String.toByteArray_ofList]

theorem utf8Encode_digitChar : ∀ {n : Nat}, n < 10 →
    [n.digitChar].utf8Encode.data.toList = [digit n] := by
  decide

theorem ofNat_of_lt {n : Nat} (h : n < 10) : ofNat n = [digit n] := by
  rw [ofNat_eq_utf8Encode, Nat.toDigits_of_lt_base h, utf8Encode_digitChar h]

theorem ofNat_of_le {n : Nat} (h : 10 ≤ n) : ofNat n = ofNat (n / 10) ++ [digit (n % 10)] := by
  rw [ofNat_eq_utf8Encode, ofNat_eq_utf8Encode, Nat.toDigits_of_base_le (by decide) h,
    List.utf8Encode_append, ByteArray.data_append, Array.toList_append,
    utf8Encode_digitChar (Nat.mod_lt n (by decide))]

/-- The digits of a number, from the last one on. -/
theorem ofNat_induction {P : Nat → Prop} (small : ∀ n < 10, P n)
    (more : ∀ n, 10 ≤ n → P (n / 10) → P n) (n : Nat) : P n := by
  induction n using Nat.strongRecOn with
  | ind n ih =>
    rcases Nat.lt_or_ge n 10 with h | h
    · exact small n h
    · exact more n h (ih (n / 10) (by omega))

theorem all_isDigit_ofNat (n : Nat) : (ofNat n).all isDigit = true := by
  induction n using ofNat_induction with
  | small n h => rw [ofNat_of_lt h, List.all_cons, isDigit_digit h]; rfl
  | more n h ih =>
    rw [ofNat_of_le h, List.all_append, ih, List.all_cons, isDigit_digit (Nat.mod_lt n (by decide))]
    rfl

/-- Only digits stand in a number. -/
theorem not_mem_ofNat {b : UInt8} (h : isDigit b = false) (n : Nat) : b ∉ ofNat n := by
  intro hb
  rw [List.all_eq_true.1 (all_isDigit_ofNat n) b hb] at h
  exact Bool.noConfusion h

theorem ofNat_ne_nil (n : Nat) : ofNat n ≠ [] := by
  rcases Nat.lt_or_ge n 10 with h | h
  · rw [ofNat_of_lt h]
    simp
  · rw [ofNat_of_le h]
    simp

/-- The digits of a number have its value. -/
theorem digitsValue_ofNat (n : Nat) : digitsValue (ofNat n) = n := by
  induction n using ofNat_induction with
  | small n h =>
    rw [ofNat_of_lt h]
    show 0 * 10 + ((digit n).toNat - 0x30) = n
    rw [toNat_digit h]
    omega
  | more n h ih =>
    rw [digitsValue] at ih
    rw [ofNat_of_le h, digitsValue, List.foldl_append, ih]
    show n / 10 * 10 + ((digit (n % 10)).toNat - 0x30) = n
    rw [toNat_digit (Nat.mod_lt n (by decide))]
    omega

/-- A number above zero does not start with a zero. -/
theorem head?_ofNat {n : Nat} (h : 0 < n) : (ofNat n).head? ≠ some 0x30 := by
  induction n using ofNat_induction with
  | small n hn =>
    rw [ofNat_of_lt hn]
    have hzero : ∀ n < 10, 0 < n → [digit n].head? ≠ some 0x30 := by decide
    exact hzero n hn h
  | more n hn ih =>
    rw [ofNat_of_le hn]
    cases hds : ofNat (n / 10) with
    | nil => exact absurd hds (ofNat_ne_nil _)
    | cons b ds =>
      rw [hds] at ih
      exact ih (by omega)

end Spotlight.Bytes
