import Spotlight.Json.Printer
import Spotlight.Proofs.Text.Utf8

/-!
# Strings between quotes are read back

* `Json.piecesOf` — the pieces a character is written in;
* `Json.pieces?_quotedRune` — a quoted character is read as these pieces;
* `Json.readString?_quoted` — a quoted string is read as the repaired text.
-/

namespace Spotlight.Json

open Bytes

/-! ### Pieces -/

theorem pieces?_quote (s : Bytes) : pieces? (quote :: s) = some ([], s) := by
  rw [pieces?.eq_def]
  dsimp only
  rw [if_pos rfl]

theorem pieces?_byte {b : UInt8} (hquote : b ≠ quote) (hcontrol : ¬ b < 0x20) (hbackslash : b ≠ backslash) (s : Bytes) :
    pieces? (b :: s) = (pieces? s).map fun p => (.byte b :: p.1, p.2) := by
  rw [pieces?.eq_def]
  dsimp only
  rw [if_neg hquote, if_neg hcontrol, if_neg hbackslash]

theorem pieces?_unit {x y z w : UInt8} {n : Nat} (h : codeUnit? x y z w = some n) (s : Bytes) :
    pieces? (backslash :: 0x75 :: x :: y :: z :: w :: s) = (pieces? s).map fun p => (.unit n :: p.1, p.2) := by
  rw [pieces?.eq_def]
  dsimp only
  rw [if_neg (by decide), if_neg (by decide), if_pos rfl]
  simp only [h]

/-- Is the byte one that stands for itself in a string between quotes? -/
def isPlain (b : UInt8) : Bool := b != quote && !decide (b < 0x20) && b != backslash

/-- Bytes that stand for themselves are read one by one. -/
theorem pieces?_plain {x : Bytes} (hx : x.all isPlain = true) (rest : Bytes) :
    pieces? (x ++ rest) = (pieces? rest).map fun p => (x.map .byte ++ p.1, p.2) := by
  induction x with
  | nil => simp
  | cons b x ih =>
    rw [List.all_cons, Bool.and_eq_true] at hx
    obtain ⟨hb, hx⟩ := hx
    simp only [isPlain, Bool.and_eq_true, bne_iff_ne, ne_eq, Bool.not_eq_true', decide_eq_false_iff_not] at hb
    obtain ⟨⟨hquote, hcontrol⟩, hslash⟩ := hb
    rw [List.cons_append, pieces?_byte hquote hcontrol hslash, ih hx, Option.map_map]
    rfl

theorem hexValue?_hexDigit : ∀ {n : Nat}, n < 16 → hexValue? (hexDigit n) = some n := by
  decide

/-- The four digits of a code unit are read back. -/
theorem codeUnit?_hexPadded {n : Nat} (h : n < 0x10000) :
    codeUnit? (hexDigit (n / 16 / 16 / 16 % 16)) (hexDigit (n / 16 / 16 % 16)) (hexDigit (n / 16 % 16))
      (hexDigit (n % 16)) = some n := by
  simp only [codeUnit?, hexValue?_hexDigit (Nat.mod_lt _ (by decide : 16 > 0)), Option.bind_eq_bind,
    Option.bind_some, Option.pure_def]
  congr 1
  omega

theorem pieces?_unitEscape {n : Nat} (h : n < 0x10000) (rest : Bytes) :
    pieces? (unitEscape n ++ rest) = (pieces? rest).map fun p => (.unit n :: p.1, p.2) := by
  have htext : unitEscape n ++ rest = backslash :: 0x75 :: hexDigit (n / 16 / 16 / 16 % 16) ::
      hexDigit (n / 16 / 16 % 16) :: hexDigit (n / 16 % 16) :: hexDigit (n % 16) :: rest := rfl
  rw [htext, pieces?_unit (codeUnit?_hexPadded h)]

theorem pieces?_escape {e c : UInt8} (he : e ≠ 0x75) (hc : escapeByte? e = some c) (rest : Bytes) :
    pieces? (backslash :: e :: rest) = (pieces? rest).map fun p => (.byte c :: p.1, p.2) := by
  rw [pieces?.eq_def]
  dsimp only
  rw [if_neg (by decide), if_neg (by decide), if_pos rfl]
  split
  · rename_i heq
    exact absurd (List.cons.inj heq).1 he
  · rename_i heq
    obtain ⟨rfl, rfl⟩ := List.cons.inj heq
    rw [hc]
  · rename_i heq
    exact absurd heq (by simp)

/-! ### Characters -/

/-- Is the character written as a code unit? -/
def isEscaped (r : Rune) : Bool :=
  r.isMalformed || r.code < 0x20 && !([0x08, 0x09, 0x0a, 0x0c, 0x0d].contains r.code) ||
    [0x3c, 0x3e, 0x26, 0x2028, 0x2029].contains r.code

/-- The pieces a character is written in. -/
def piecesOf (r : Rune) : List Piece := if isEscaped r then [.unit r.code] else r.raw.map .byte

/-- An ASCII character is written as a code unit, as itself, or as an escape of one letter. -/
theorem quotedRune_ascii : ∀ n < 128,
    (quotedRune ⟨n, [n.toUInt8]⟩ = unitEscape n ∧ piecesOf ⟨n, [n.toUInt8]⟩ = [.unit n]) ∨
    piecesOf ⟨n, [n.toUInt8]⟩ = [.byte n.toUInt8] ∧
      (quotedRune ⟨n, [n.toUInt8]⟩ = [n.toUInt8] ∧ isPlain n.toUInt8 = true ∨
        ∃ e ∈ quotedRune ⟨n, [n.toUInt8]⟩, quotedRune ⟨n, [n.toUInt8]⟩ = [backslash, e] ∧ e ≠ 0x75 ∧
          escapeByte? e = some n.toUInt8) := by
  decide

/-- Any other character is written as a code unit or as itself. -/
theorem quotedRune_of_le {r : Rune} (h : 0x80 ≤ r.code) :
    quotedRune r = if isEscaped r then unitEscape r.code else r.raw := by
  cases hmal : r.isMalformed with
  | true =>
    have hcode : r.code = Rune.replacement := by
      rw [Rune.isMalformed, Bool.and_eq_true, beq_iff_eq] at hmal
      exact hmal.1
    simp only [quotedRune, isEscaped, hmal, hcode, if_true, Bool.true_or]
  | false =>
    have hne : ∀ n < 0x80, r.code ≠ n := by
      intro n hn
      omega
    have hlt : ¬ r.code < 0x20 := by omega
    simp [quotedRune, isEscaped, hmal, hlt, hne]

/-- Only small code points are written as a code unit, and no half of a pair. -/
theorem lt_of_isEscaped {r : Rune} (h : isEscaped r = true) : r.code < 0x10000 ∧ isHigh r.code = false := by
  simp only [isEscaped, Rune.isMalformed, Rune.replacement, Bool.or_eq_true, Bool.and_eq_true, beq_iff_eq,
    decide_eq_true_eq, List.contains_eq_mem, List.mem_cons, List.not_mem_nil, or_false] at h
  simp only [isHigh, Bool.and_eq_false_iff, decide_eq_false_iff_not]
  omega

/-- A quoted character is read as its pieces. -/
theorem pieces?_quotedRune (b : UInt8) (s rest : Bytes) :
    pieces? (quotedRune (Rune.first b s) ++ rest) =
      (pieces? rest).map fun p => (piecesOf (Rune.first b s) ++ p.1, p.2) := by
  by_cases hb : b < 0x80
  · rw [Rune.first_of_ascii hb]
    rw [UInt8.lt_iff_toNat_lt] at hb
    have hbyte : b.toNat.toUInt8 = b := UInt8.ofNat_toNat
    have hcases := quotedRune_ascii b.toNat hb
    rw [hbyte] at hcases
    rcases hcases with ⟨hq, hp⟩ | ⟨hp, ⟨hq, hplain⟩ | ⟨e, -, hq, he, hbe⟩⟩
    · rw [hq, hp, pieces?_unitEscape (Nat.lt_trans hb (by decide))]
      rfl
    · rw [hq, hp, pieces?_plain (by rw [List.all_cons, hplain]; rfl)]
      rfl
    · rw [hq, hp]
      exact pieces?_escape he hbe rest
  · rw [quotedRune_of_le (Rune.le_code hb), piecesOf]
    split
    · exact pieces?_unitEscape (lt_of_isEscaped ‹_›).1 rest
    · have hplain : (Rune.first b s).raw.all isPlain = true := by
        rw [List.all_eq_true]
        intro c hc
        have hle := Rune.le_of_mem_raw hb hc
        simp only [isPlain, quote, backslash, Bool.and_eq_true, bne_iff_ne, ne_eq, Bool.not_eq_true',
          decide_eq_false_iff_not, ← UInt8.toNat_inj, UInt8.lt_iff_toNat_lt]
        simp only [UInt8.le_iff_toNat_le, UInt8.reduceToNat] at hle ⊢
        omega
      exact pieces?_plain hplain rest

/-! ### Strings -/

theorem assemble_bytes (x : Bytes) (ps : List Piece) : assemble (x.map .byte ++ ps) = x ++ assemble ps := by
  induction x with
  | nil => rfl
  | cons b x ih => rw [List.map_cons, List.cons_append, assemble, ih, List.cons_append]

theorem assemble_unit {n : Nat} (h : isHigh n = false) (ps : List Piece) :
    assemble (.unit n :: ps) = Rune.encode n ++ assemble ps := by
  cases ps with
  | nil => rw [assemble, assemble, List.append_nil]
  | cons p ps =>
    cases p with
    | byte b => rw [assemble, assemble]
    | unit m => rw [assemble, h, Bool.false_and, if_neg Bool.false_ne_true]

/-- The pieces of a character are put together to the character, repaired if need be. -/
theorem assemble_piecesOf (b : UInt8) (s : Bytes) (ps : List Piece) :
    assemble (piecesOf (Rune.first b s) ++ ps) = (Rune.first b s).repair.raw ++ assemble ps := by
  unfold piecesOf Rune.repair
  cases hmal : (Rune.first b s).isMalformed with
  | true =>
    have hcode : (Rune.first b s).code = Rune.replacement := by
      rw [Rune.isMalformed, Bool.and_eq_true, beq_iff_eq] at hmal
      exact hmal.1
    have hescaped : isEscaped (Rune.first b s) = true := by rw [isEscaped, hmal]; rfl
    rw [if_pos hescaped, hcode, List.singleton_append, assemble_unit (by decide)]
    rfl
  | false =>
    rw [if_neg Bool.false_ne_true, Rune.raw_eq_encode hmal]
    split
    · rw [List.singleton_append, assemble_unit (lt_of_isEscaped ‹_›).2]
    · rw [assemble_bytes]

/-- The pieces of a quoted text, up to the quote. -/
theorem pieces?_quoted (s rest : Bytes) :
    pieces? ((Rune.ofBytes s).flatMap quotedRune ++ quote :: rest) =
      some ((Rune.ofBytes s).flatMap piecesOf, rest) := by
  induction s using Rune.ofBytes_induction with
  | nil => exact pieces?_quote rest
  | cons b s ih =>
    rw [Rune.ofBytes_cons, List.flatMap_cons, List.append_assoc, pieces?_quotedRune, ih]
    rfl

theorem assemble_quoted (s : Bytes) : assemble ((Rune.ofBytes s).flatMap piecesOf) = Rune.repaired s := by
  rw [Rune.repaired_eq]
  induction s using Rune.ofBytes_induction with
  | nil => rfl
  | cons b s ih => rw [Rune.ofBytes_cons, List.flatMap_cons, assemble_piecesOf, ih, List.flatMap_cons]

/-- **A quoted string is read as the repaired text.** -/
theorem readString?_quoted (s rest : Bytes) :
    readString? ((Rune.ofBytes s).flatMap quotedRune ++ quote :: rest) = some (Rune.repaired s, rest) := by
  rw [readString?, pieces?_quoted, Option.map_some]
  dsimp only
  rw [assemble_quoted, Rune.repaired_of_isUtf8 (isUtf8_repaired s)]

end Spotlight.Json
