import Spotlight.Json.Reader
import Spotlight.Proofs.Text.Decimal

/-!
# Integers are read back

* `Json.endsNumber` — can a text follow a number?
* `Json.digits?_eq_some_iff` — how a run of digits is read;
* `Json.readNumber?_ofInt` — an integer is read as it was written;
* `Json.Reader.int64?_ofInt` — and stands for itself, if it fits into 64 bits.
-/

namespace Spotlight.Json

open Bytes

/-- Can the text follow a number without being read as a part of it? -/
def endsNumber (s : Bytes) : Bool :=
  s.head?.all fun b => !isDigit b && b != 0x2e && b != 0x65 && b != 0x45

/-- A run of digits is read up to the first byte that is none. -/
theorem digits?_eq_some_iff {s ds rest : Bytes} : digits? s = some (ds, rest) ↔
    s = ds ++ rest ∧ ds ≠ [] ∧ ds.all isDigit = true ∧ ∀ b ∈ rest.head?, isDigit b = false := by
  constructor
  · intro h
    unfold digits? at h
    split at h
    · simp at h
    · rename_i hne
      cases h
      refine ⟨List.takeWhile_append_dropWhile.symm, hne, List.all_takeWhile, fun b hb => ?_⟩
      have hstop := List.head?_dropWhile_not isDigit s
      rw [hb] at hstop
      exact hstop
  · rintro ⟨rfl, hne, hds, hrest⟩
    have htake : (ds ++ rest).takeWhile isDigit = ds ∧ (ds ++ rest).dropWhile isDigit = rest := by
      rw [List.takeWhile_append_of_pos (List.all_eq_true.1 hds),
        List.dropWhile_append_of_pos (List.all_eq_true.1 hds)]
      cases rest with
      | nil => exact ⟨List.append_nil ds, rfl⟩
      | cons b rest =>
        have hb := hrest b rfl
        rw [List.takeWhile_cons_of_neg (by simp [hb]), List.dropWhile_cons_of_neg (by simp [hb])]
        exact ⟨List.append_nil ds, rfl⟩
    rw [digits?, htake.1, htake.2]
    cases ds with
    | nil => exact absurd rfl hne
    | cons b ds => rfl

theorem whole?_ofNat (n : Nat) {rest : Bytes} (hrest : endsNumber rest = true) :
    whole? (ofNat n ++ rest) = some (ofNat n, rest) := by
  rcases Nat.eq_zero_or_pos n with rfl | hn
  · rfl
  · have hstop : ∀ b ∈ rest.head?, isDigit b = false := by
      intro b hb
      rw [endsNumber, hb] at hrest
      simp only [Option.all_some, Bool.and_eq_true, Bool.not_eq_true'] at hrest
      exact hrest.1.1.1
    have hdigits := digits?_eq_some_iff.2 ⟨rfl, ofNat_ne_nil n, all_isDigit_ofNat n, hstop⟩
    have hhead := head?_ofNat hn
    unfold whole?
    split
    · rename_i heq
      exfalso
      apply hhead
      cases hds : ofNat n with
      | nil => exact absurd hds (ofNat_ne_nil n)
      | cons b ds =>
        rw [hds] at heq
        rw [(List.cons.inj heq).1]
        rfl
    · exact hdigits

theorem fraction?_of_endsNumber {s : Bytes} (h : endsNumber s = true) : fraction? s = some ([], s) := by
  unfold fraction?
  split
  · simp [endsNumber] at h
  · rfl

theorem exponent?_of_endsNumber {s : Bytes} (h : endsNumber s = true) : exponent? s = some ([], s) := by
  cases s with
  | nil => rfl
  | cons b s =>
    simp only [endsNumber, List.head?_cons, Option.all_some, Bool.and_eq_true, bne_iff_ne] at h
    have hne : ¬ (decide (b = 0x65) || decide (b = 0x45)) = true := by simp [h]
    rw [exponent?.eq_def]
    exact if_neg hne

theorem sign_ofNat (n : Nat) (rest : Bytes) : sign (ofNat n ++ rest) = ([], ofNat n ++ rest) := by
  unfold sign
  split
  · rename_i heq
    exfalso
    cases hds : ofNat n with
    | nil => exact absurd hds (ofNat_ne_nil n)
    | cons b ds =>
      have hdigit := List.all_eq_true.1 (all_isDigit_ofNat n) b (by rw [hds]; simp)
      rw [hds] at heq
      rw [(List.cons.inj heq).1] at hdigit
      exact absurd hdigit (by decide)
  · rfl

/-- An integer is read as it was written. -/
theorem readNumber?_ofInt (n : Int) {rest : Bytes} (hrest : endsNumber rest = true) :
    readNumber? (ofInt n ++ rest) = some (ofInt n, rest) := by
  cases n with
  | ofNat n =>
    show readNumber? (ofNat n ++ rest) = _
    simp only [readNumber?, sign_ofNat, whole?_ofNat n hrest, fraction?_of_endsNumber hrest,
      exponent?_of_endsNumber hrest, Option.bind_eq_bind, Option.bind_some, Option.pure_def,
      List.append_nil, List.nil_append]
    rfl
  | negSucc n =>
    show readNumber? (0x2d :: (ofNat (n + 1) ++ rest)) = _
    simp only [readNumber?, sign, whole?_ofNat (n + 1) hrest, fraction?_of_endsNumber hrest,
      exponent?_of_endsNumber hrest, Option.bind_eq_bind, Option.bind_some, Option.pure_def,
      List.append_nil]
    rfl

/-- Digits behind a sign stand for a number, if that fits into 64 bits. -/
theorem Reader.int64?_of_sign {s minus : Bytes} {n : Nat} {k : Int} (hs : sign s = (minus, ofNat n))
    (hk : (if minus.isEmpty then (n : Int) else -n) = k) :
    int64? s = if -0x8000000000000000 ≤ k && k < 0x8000000000000000 then some k else none := by
  have hdigits : ¬ ((ofNat n).isEmpty || !(ofNat n).all isDigit) = true := by
    have hne := ofNat_ne_nil n
    simp [all_isDigit_ofNat, hne]
  rw [int64?, hs]
  dsimp only
  rw [if_neg hdigits, digitsValue_ofNat, hk]

/-- An integer that fits into 64 bits stands for itself, and no other is read. -/
theorem Reader.int64?_ofInt (n : Int) :
    int64? (ofInt n) = if -0x8000000000000000 ≤ n && n < 0x8000000000000000 then some n else none := by
  cases n with
  | ofNat n =>
    have hsign := sign_ofNat n []
    rw [List.append_nil] at hsign
    exact int64?_of_sign hsign rfl
  | negSucc n =>
    have hsign : sign (ofInt (.negSucc n)) = ([0x2d], ofNat (n + 1)) := rfl
    exact int64?_of_sign hsign rfl

end Spotlight.Json
