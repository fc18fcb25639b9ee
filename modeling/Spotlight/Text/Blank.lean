import Spotlight.Text.Rune

/-!
# White space

The characters with the Unicode property White_Space, and trimming them off the ends of a text.
-/

namespace Spotlight.Blank

/-- Has the code point the property White_Space? -/
def isSpace (code : Nat) : Bool :=
  (0x09 ≤ code && code ≤ 0x0d) || code == 0x20 || code == 0x85 || code == 0xa0 || code == 0x1680 ||
  (0x2000 ≤ code && code ≤ 0x200a) || code == 0x2028 || code == 0x2029 || code == 0x202f ||
  code == 0x205f || code == 0x3000

/-- The text without the white space at its head. -/
def trimStart (s : Bytes) : Bytes :=
  ((Rune.ofBytes s).dropWhile fun r => isSpace r.code).flatMap Rune.raw

/-- The text without the white space at its end. -/
def trimEnd (s : Bytes) : Bytes :=
  ((Rune.ofBytes s).reverse.dropWhile fun r => isSpace r.code).reverse.flatMap Rune.raw

end Spotlight.Blank
