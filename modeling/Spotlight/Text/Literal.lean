import Spotlight.Text.Rune

/-!
# Literal texts in a search

A literal is compared character by character: U+FFFD in it also stands for a malformed byte, which
reads as that character. All other characters are compared by their bytes.

* `Literal.strip?` — what follows a literal at the head of a text;
* `Literal.find?` — the offset of its first occurrence, and what follows it.
-/

namespace Spotlight.Literal

/-- What follows the literal at the head of a text. -/
def strip? : Bytes → Bytes → Option Bytes
  | [], s => some s
  | _ :: _, [] => none
  | 0xef :: 0xbf :: 0xbd :: lit, b :: s =>
    let r := Rune.first b s
    if r.code = Rune.replacement then strip? lit (s.drop (r.raw.length - 1)) else none
  | a :: lit, b :: s => if a = b then strip? lit s else none

/-- The first occurrence in a text that starts at offset `i`, of which `skip` bytes still belong
to the character before. -/
def findFrom? (lit : Bytes) : (skip i : Nat) → Bytes → Option (Nat × Bytes)
  | _, i, [] => (strip? lit []).map (i, ·)
  | skip + 1, i, _ :: s => findFrom? lit skip (i + 1) s
  | 0, i, b :: s =>
    match strip? lit (b :: s) with
    | some rest => some (i, rest)
    | none => findFrom? lit ((Rune.first b s).raw.length - 1) (i + 1) s

/-- The offset of the first occurrence of the literal, and what follows it. Occurrences start where
a character starts. -/
def find? (lit s : Bytes) : Option (Nat × Bytes) := findFrom? lit 0 0 s

end Spotlight.Literal
