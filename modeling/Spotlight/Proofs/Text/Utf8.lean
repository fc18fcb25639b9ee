import Spotlight.Digest
import Spotlight.Proofs.Text.Rune

/-!
# Well-formed texts

* `Rune.raw_eq_encode` — the bytes of a well-formed character are the UTF-8 form of its code point;
* `Rune.ofBytes_repaired` — a repaired text has the same characters, with U+FFFD written out;
* `Bytes.isUtf8_repaired`, `Rune.repaired_of_isUtf8` — a repaired text is well formed, and a text that is
  well formed is as good as repaired;
* `Bytes.isUtf8_of_ascii`, `Digest.isUtf8_sha256` — ASCII texts are well formed, and digests are ASCII.
-/

namespace Spotlight

namespace Rune

/-! ### Well-formed characters -/

theorem bounds_of_second {b c : UInt8}
    (h : ¬ (decide (c < leastSecond b) || decide (greatestSecond b < c)) = true) :
    0x80 ≤ c.toNat ∧ c.toNat ≤ 0xbf ∧ (b.toNat = 0xe0 → 0xa0 ≤ c.toNat) ∧
      (b.toNat = 0xf0 → 0x90 ≤ c.toNat) ∧ (b.toNat = 0xed → c.toNat ≤ 0x9f) ∧
      (b.toNat = 0xf4 → c.toNat ≤ 0x8f) := by
  simp only [Bool.or_eq_true, decide_eq_true_eq, not_or, leastSecond, greatestSecond,
    UInt8.lt_iff_toNat_lt, ← UInt8.toNat_inj, apply_ite UInt8.toNat, UInt8.reduceToNat] at h
  grind

theorem bounds_of_isContinuation {c : UInt8} (h : ¬ (!isContinuation c) = true) :
    0x80 ≤ c.toNat ∧ c.toNat ≤ 0xbf := by
  simpa [isContinuation, UInt8.le_iff_toNat_le] using h

theorem bounds_of_lead {b : UInt8} (h : ¬ (decide (b < 194) || decide (244 < b)) = true) :
    194 ≤ b.toNat ∧ b.toNat ≤ 244 := by
  simpa [UInt8.lt_iff_toNat_lt] using h

theorem encode_two {n : Nat} (h : 0x80 ≤ n) (h' : n < 0x800) :
    encode n = [(0xc0 + n / 64).toUInt8, (0x80 + n % 64).toUInt8] := by
  rw [encode, if_neg (by omega), if_pos h']

theorem encode_three {n : Nat} (h : 0x800 ≤ n) (h' : n < 0x10000) (hs : n < 0xd800 ∨ 0xe000 ≤ n) :
    encode n = [(0xe0 + n / 4096).toUInt8, (0x80 + n / 64 % 64).toUInt8, (0x80 + n % 64).toUInt8] := by
  have hscalar : isScalar n = true := by
    simp only [isScalar, Bool.or_eq_true, Bool.and_eq_true, decide_eq_true_eq]
    omega
  rw [encode, if_neg (by omega), if_neg (by omega), hscalar, if_neg (by simp), if_pos h']

theorem encode_four {n : Nat} (h : 0x10000 ≤ n) (h' : n ≤ 0x10ffff) :
    encode n = [(0xf0 + n / 262144).toUInt8, (0x80 + n / 4096 % 64).toUInt8,
      (0x80 + n / 64 % 64).toUInt8, (0x80 + n % 64).toUInt8] := by
  have hscalar : isScalar n = true := by
    simp only [isScalar, Bool.or_eq_true, Bool.and_eq_true, decide_eq_true_eq]
    omega
  rw [encode, if_neg (by omega), if_neg (by omega), hscalar, if_neg (by simp), if_neg (by omega)]

theorem eq_toUInt8 {b : UInt8} {n : Nat} (h : b.toNat = n) : b = n.toUInt8 := by
  rw [← h]
  exact UInt8.ofNat_toNat.symm

/-- The bytes of a well-formed character are the UTF-8 form of its code point. -/
theorem raw_eq_encode {b : UInt8} {s : Bytes} (h : (first b s).isMalformed = false) :
    (first b s).raw = encode (first b s).code := by
  have hmal : (malformed b).isMalformed ≠ false := by simp [isMalformed, malformed]
  revert h
  fun_cases first b s with
  | case2 | case3 | case4 | case6 | case7 | case9 | case10 => exact fun h => absurd h hmal
  | case1 _ hb =>
    intro _
    simp only [UInt8.lt_iff_toNat_lt, UInt8.reduceToNat] at hb
    show [b] = encode b.toNat
    rw [encode, if_pos hb, ← eq_toUInt8 rfl]
  | case5 _ hlead c _ hsecond hb =>
    intro _
    have := bounds_of_lead hlead
    have := bounds_of_second hsecond
    simp only [UInt8.lt_iff_toNat_lt, UInt8.reduceToNat] at hb
    show [b, c] = encode (b.toNat % 32 * 64 + c.toNat % 64)
    rw [encode_two (by omega) (by omega)]
    simp only [List.cons.injEq, and_true]
    exact ⟨eq_toUInt8 (by omega), eq_toUInt8 (by omega)⟩
  | case8 _ hlead c hsecond hb d _ hd hb' =>
    intro _
    have := bounds_of_lead hlead
    have := bounds_of_second hsecond
    have := bounds_of_isContinuation hd
    simp only [UInt8.lt_iff_toNat_lt, UInt8.reduceToNat] at hb hb'
    show [b, c, d] = encode (b.toNat % 16 * 4096 + c.toNat % 64 * 64 + d.toNat % 64)
    rw [encode_three (by omega) (by omega) (by omega)]
    simp only [List.cons.injEq, and_true]
    exact ⟨eq_toUInt8 (by omega), eq_toUInt8 (by omega), eq_toUInt8 (by omega)⟩
  | case11 _ hlead c hsecond _ d hd hb e _ he =>
    intro _
    have := bounds_of_lead hlead
    have := bounds_of_second hsecond
    have := bounds_of_isContinuation hd
    have := bounds_of_isContinuation he
    simp only [UInt8.lt_iff_toNat_lt, UInt8.reduceToNat] at hb
    show [b, c, d, e] = encode (b.toNat % 8 * 262144 + c.toNat % 64 * 4096 + d.toNat % 64 * 64 + e.toNat % 64)
    rw [encode_four (by omega) (by omega)]
    simp only [List.cons.injEq, and_true]
    exact ⟨eq_toUInt8 (by omega), eq_toUInt8 (by omega), eq_toUInt8 (by omega), eq_toUInt8 (by omega)⟩

/-- A character that is not ASCII has no ASCII code point. -/
theorem le_code {b : UInt8} {s : Bytes} (hb : ¬ b < 0x80) : 0x80 ≤ (first b s).code := by
  cases hmal : (first b s).isMalformed with
  | true =>
    simp only [isMalformed, Bool.and_eq_true, beq_iff_eq] at hmal
    rw [hmal.1]
    decide
  | false =>
    rcases Nat.lt_or_ge (first b s).code 0x80 with hlt | hge
    · have hraw := raw_eq_encode hmal
      rw [encode, if_pos hlt, raw_first, List.cons.injEq] at hraw
      rw [hraw.1, UInt8.lt_iff_toNat_lt] at hb
      simp only [Nat.toUInt8_eq, UInt8.toNat_ofNat', UInt8.reduceToNat] at hb
      omega
    · exact hge

/-- A well-formed character is read again in front of every text. -/
theorem ofBytes_raw_append {b : UInt8} {s : Bytes} (h : (first b s).isMalformed = false) (y : Bytes) :
    ofBytes ((first b s).raw ++ y) = first b s :: ofBytes y := by
  have hraw : (first b s).raw = b :: (first b s).raw.tail := by
    rw [raw_first, List.tail_cons]
  have hlen : (first b s).raw.length - 1 = (first b s).raw.tail.length := List.length_tail.symm
  rw [hraw, List.cons_append, ofBytes_cons, first_raw_append h, hlen, List.drop_left]

/-! ### Repaired texts -/

/-- The character, with U+FFFD written out if it is malformed. -/
def repair (r : Rune) : Rune := if r.isMalformed then ⟨replacement, replacementBytes⟩ else r

theorem repair_isMalformed (r : Rune) : r.repair.isMalformed = false := by
  unfold repair
  split
  · rfl
  · simpa using ‹¬ r.isMalformed = true›

theorem repaired_eq (s : Bytes) : repaired s = (ofBytes s).flatMap fun r => r.repair.raw := by
  have hraw : (fun r : Rune => if r.isMalformed then replacementBytes else r.raw) =
      fun r => r.repair.raw := by
    funext r
    unfold repair
    split <;> rfl
  rw [repaired, hraw]

/-- A repaired text has the same characters, with U+FFFD written out. -/
theorem ofBytes_repaired (s : Bytes) : ofBytes (repaired s) = (ofBytes s).map repair := by
  rw [repaired_eq]
  induction s using ofBytes_induction with
  | nil => rfl
  | cons b s ih =>
    rw [ofBytes_cons, List.flatMap_cons, List.map_cons, ← ih]
    cases h : (first b s).isMalformed with
    | true =>
      have hrepair : (first b s).repair = ⟨replacement, replacementBytes⟩ := by rw [repair, h]; rfl
      rw [hrepair]
      exact ofBytes_raw_append (b := 0xef) (s := [0xbf, 0xbd]) rfl _
    | false =>
      have hrepair : (first b s).repair = first b s := by rw [repair, h]; rfl
      rw [hrepair]
      exact ofBytes_raw_append h _

/-- A text that is well formed is as good as repaired. -/
theorem repaired_of_isUtf8 {s : Bytes} (h : s.isUtf8 = true) : repaired s = s := by
  have hraw : ∀ r ∈ ofBytes s, r.repair.raw = r.raw := by
    intro r hr
    have hwell := List.all_eq_true.1 h r hr
    rw [Bool.not_eq_true'] at hwell
    rw [repair, hwell]
    rfl
  rw [repaired_eq, List.flatMap_def, List.map_congr_left hraw, ← List.flatMap_def]
  exact flatMap_raw_ofBytes s

end Rune

/-- A repaired text is well formed. -/
theorem Bytes.isUtf8_repaired (s : Bytes) : (Rune.repaired s).isUtf8 = true := by
  rw [isUtf8, Rune.ofBytes_repaired, List.all_map, List.all_eq_true]
  intro r _
  show (!r.repair.isMalformed) = true
  rw [r.repair_isMalformed]
  rfl

/-! ### ASCII texts -/

theorem Bytes.isUtf8_of_ascii {s : Bytes} (h : ∀ b ∈ s, b < 0x80) : s.isUtf8 = true := by
  rw [isUtf8, Rune.ofBytes_ascii h, List.all_map, List.all_eq_true]
  intro b hb
  have hlt := h b hb
  simp only [UInt8.lt_iff_toNat_lt, UInt8.reduceToNat] at hlt
  have hne : b.toNat ≠ Rune.replacement := by
    rw [Rune.replacement]
    omega
  simp [Rune.isMalformed, hne]

theorem Bytes.ascii_hexPadded (width n : Nat) : ∀ b ∈ hexPadded width n, b < 0x80 := by
  induction width generalizing n with
  | zero => simp [hexPadded]
  | succ width ih =>
    intro b hb
    rw [hexPadded, List.mem_append, List.mem_singleton] at hb
    rcases hb with hb | rfl
    · exact ih _ b hb
    · have hdigit : ∀ i < 16, hexDigit i < 0x80 := by decide
      exact hdigit _ (Nat.mod_lt n (by decide))

/-- A digest is a text of digits and letters. -/
theorem Digest.isUtf8_sha256 (s : Bytes) : (sha256 s).isUtf8 = true := by
  apply Bytes.isUtf8_of_ascii
  intro b hb
  rw [sha256, Bytes.toHex, List.mem_flatMap] at hb
  obtain ⟨c, -, hb⟩ := hb
  exact Bytes.ascii_hexPadded _ _ b hb

end Spotlight
