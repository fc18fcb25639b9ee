import Spotlight.Text.Bytes

/-!
# Characters of a byte string

A byte string is read as UTF-8 one character at a time. A byte that does not belong to a well-formed
sequence counts as one character by itself and reads as U+FFFD.

* `Rune.first` — the character at the head of a text;
* `Rune.ofBytes` — all characters of a text, none of its bytes lost (`Rune.raw`);
* `Rune.encode` — the UTF-8 form of a code point;
* `Bytes.isUtf8` — is every character of a text well formed?
-/

namespace Spotlight

/-- One character of a text: its code point and the bytes it was read from. -/
structure Rune where
  /-- The code point, U+FFFD for a malformed byte. -/
  code : Nat
  /-- The bytes the character was read from. -/
  raw : Bytes
deriving DecidableEq, Repr, Inhabited

namespace Rune

/-- The code point that stands for a malformed byte. -/
def replacement : Nat := 0xfffd

/-- The UTF-8 form of U+FFFD. -/
def replacementBytes : Bytes := [0xef, 0xbf, 0xbd]

/-- A byte that is not part of a well-formed sequence. -/
def malformed (b : UInt8) : Rune := ⟨replacement, [b]⟩

/-- Was the character read from a malformed byte? -/
def isMalformed (r : Rune) : Bool := r.code == replacement && r.raw.length == 1

/-- Does `b` continue a multi-byte sequence? -/
def isContinuation (b : UInt8) : Bool := 0x80 ≤ b && b ≤ 0xbf

/-- The payload of a continuation byte. -/
def payload (b : UInt8) : Nat := b.toNat % 64

/-- The least second byte that may follow the lead byte `b`: overlong forms are excluded. -/
def leastSecond (b : UInt8) : UInt8 := if b = 0xe0 then 0xa0 else if b = 0xf0 then 0x90 else 0x80

/-- The greatest second byte that may follow the lead byte `b`: surrogates and code points past
U+10FFFF are excluded. -/
def greatestSecond (b : UInt8) : UInt8 := if b = 0xed then 0x9f else if b = 0xf4 then 0x8f else 0xbf

/-- The character that starts with `b` and goes on in `s`. -/
def first (b : UInt8) (s : Bytes) : Rune :=
  if b < 0x80 then ⟨b.toNat, [b]⟩
  else if b < 0xc2 || 0xf4 < b then malformed b
  else match s with
    | [] => malformed b
    | c :: s =>
      if c < leastSecond b || greatestSecond b < c then malformed b
      else if b < 0xe0 then ⟨(b.toNat % 32) * 64 + payload c, [b, c]⟩
      else match s with
        | [] => malformed b
        | d :: s =>
          if !isContinuation d then malformed b
          else if b < 0xf0 then
            ⟨(b.toNat % 16) * 4096 + payload c * 64 + payload d, [b, c, d]⟩
          else match s with
            | [] => malformed b
            | e :: _ =>
              if !isContinuation e then malformed b
              else ⟨(b.toNat % 8) * 262144 + payload c * 4096 + payload d * 64 + payload e,
                [b, c, d, e]⟩

/-- The characters of a text after its first `skip` bytes. -/
def ofBytesFrom : (skip : Nat) → Bytes → List Rune
  | _, [] => []
  | skip + 1, _ :: s => ofBytesFrom skip s
  | 0, b :: s => first b s :: ofBytesFrom ((first b s).raw.length - 1) s

/-- All characters of a text. -/
def ofBytes (s : Bytes) : List Rune := ofBytesFrom 0 s

/-- Can `code` be written in UTF-8: is it no surrogate and at most U+10FFFF? -/
def isScalar (code : Nat) : Bool := code < 0xd800 || (0xe000 ≤ code && code ≤ 0x10ffff)

/-- The UTF-8 form of a code point, that of U+FFFD where it has none. -/
def encode (code : Nat) : Bytes :=
  if code < 0x80 then [code.toUInt8]
  else if code < 0x800 then [(0xc0 + code / 64).toUInt8, (0x80 + code % 64).toUInt8]
  else if !isScalar code then replacementBytes
  else if code < 0x10000 then
    [(0xe0 + code / 4096).toUInt8, (0x80 + code / 64 % 64).toUInt8, (0x80 + code % 64).toUInt8]
  else
    [(0xf0 + code / 262144).toUInt8, (0x80 + code / 4096 % 64).toUInt8,
      (0x80 + code / 64 % 64).toUInt8, (0x80 + code % 64).toUInt8]

/-- The text with U+FFFD written out for every malformed byte. -/
def repaired (s : Bytes) : Bytes :=
  (ofBytes s).flatMap fun r => if r.isMalformed then replacementBytes else r.raw

end Rune

/-- Is the text well-formed UTF-8? -/
def Bytes.isUtf8 (s : Bytes) : Bool := (Rune.ofBytes s).all fun r => !r.isMalformed

end Spotlight
