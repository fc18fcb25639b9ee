/-!
# Byte strings

All texts of this library are byte strings: source files need not be valid UTF-8, and every offset
counts bytes.

* `Bytes.ofString` — the bytes of a string literal, also inserted as a coercion;
* `Bytes.strip?` — what follows a literal at the head of a text;
* `Bytes.find?` — the offset of the first occurrence of a literal;
* `Bytes.splitOn`, `Bytes.joinWith` — cutting at a separator byte and putting the pieces back
  together, as lists do it.
-/

namespace Spotlight

/-- A text, as the bytes it is stored in. -/
abbrev Bytes := List UInt8

namespace Bytes

/-- The UTF-8 bytes of a string. -/
def ofString (s : String) : Bytes := s.toByteArray.data.toList

instance : Coe String Bytes := ⟨ofString⟩

/-! ### Named bytes -/

/-- Horizontal tab. -/
@[match_pattern] abbrev tab : UInt8 := 0x09

/-- Line feed, the end of a line. -/
@[match_pattern] abbrev lf : UInt8 := 0x0a

/-- Carriage return. -/
@[match_pattern] abbrev cr : UInt8 := 0x0d

/-- The space character. -/
@[match_pattern] abbrev space : UInt8 := 0x20

/-- The double quote. -/
@[match_pattern] abbrev quote : UInt8 := 0x22

/-- The dollar sign, which opens a template substitution together with a brace. -/
@[match_pattern] abbrev dollar : UInt8 := 0x24

/-- The single quote. -/
@[match_pattern] abbrev apostrophe : UInt8 := 0x27

/-- The opening parenthesis. -/
@[match_pattern] abbrev lparen : UInt8 := 0x28

/-- The closing parenthesis. -/
@[match_pattern] abbrev rparen : UInt8 := 0x29

/-- The asterisk. -/
@[match_pattern] abbrev star : UInt8 := 0x2a

/-- The comma. -/
@[match_pattern] abbrev comma : UInt8 := 0x2c

/-- The slash. -/
@[match_pattern] abbrev slash : UInt8 := 0x2f

/-- The semicolon. -/
@[match_pattern] abbrev semicolon : UInt8 := 0x3b

/-- The opening square bracket. -/
@[match_pattern] abbrev lbracket : UInt8 := 0x5b

/-- The backslash. -/
@[match_pattern] abbrev backslash : UInt8 := 0x5c

/-- The closing square bracket. -/
@[match_pattern] abbrev rbracket : UInt8 := 0x5d

/-- The grave accent, which delimits template literals and code fences. -/
@[match_pattern] abbrev grave : UInt8 := 0x60

/-- The opening brace. -/
@[match_pattern] abbrev lbrace : UInt8 := 0x7b

/-- The closing brace. -/
@[match_pattern] abbrev rbrace : UInt8 := 0x7d

/-! ### Byte classes -/

/-- Is `b` an ASCII digit? -/
def isDigit (b : UInt8) : Bool := 0x30 ≤ b && b ≤ 0x39

/-- Is `b` an ASCII letter? -/
def isLetter (b : UInt8) : Bool := (0x41 ≤ b && b ≤ 0x5a) || (0x61 ≤ b && b ≤ 0x7a)

/-- Is `b` a word byte: an ASCII letter, a digit or an underscore? -/
def isWord (b : UInt8) : Bool := isLetter b || isDigit b || b == 0x5f

/-- Is `b` one of tab, line feed, form feed, carriage return and space? -/
def isBlank (b : UInt8) : Bool := b == 0x20 || b == 0x09 || b == 0x0a || b == 0x0c || b == 0x0d

/-- An ASCII capital in lower case; every other byte as it is. -/
def toLower (b : UInt8) : UInt8 := if 0x41 ≤ b && b ≤ 0x5a then b + 0x20 else b

/-! ### Searching -/

/-- What follows `lit` in a text that starts with it. -/
def strip? : Bytes → Bytes → Option Bytes
  | [], s => some s
  | _ :: _, [] => none
  | a :: lit, b :: s => if a = b then strip? lit s else none

theorem strip?_append (lit rest : Bytes) : strip? lit (lit ++ rest) = some rest := by
  induction lit with
  | nil => rfl
  | cons a lit ih => simp [strip?, ih]

theorem eq_append_of_strip? : ∀ {lit s rest : Bytes}, strip? lit s = some rest → s = lit ++ rest
  | [], s, rest, h => by simpa [strip?] using h
  | _ :: _, [], rest, h => by simp [strip?] at h
  | a :: lit, b :: s, rest, h => by
      by_cases hab : a = b
      · subst hab
        simp only [strip?, if_true] at h
        rw [eq_append_of_strip? h, List.cons_append]
      · simp [strip?, hab] at h

theorem strip?_eq_some_iff {lit s rest : Bytes} : strip? lit s = some rest ↔ s = lit ++ rest :=
  ⟨eq_append_of_strip?, fun h => h ▸ strip?_append lit rest⟩

/-- Does the text start with `lit`? -/
def startsWith (s lit : Bytes) : Bool := (strip? lit s).isSome

/-- The offset of the first occurrence of `lit`. -/
def find? (lit : Bytes) : Bytes → Option Nat
  | [] => if lit.isEmpty then some 0 else none
  | b :: s => if startsWith (b :: s) lit then some 0 else (find? lit s).map (· + 1)

/-- Does `lit` occur in the text? -/
def contains (s lit : Bytes) : Bool := (find? lit s).isSome

/-! ### Cutting and joining -/

/-- The pieces between the occurrences of `sep`; a text without `sep` is one piece. -/
abbrev splitOn (sep : UInt8) (s : Bytes) : List Bytes := List.splitOn sep s

/-- The pieces one after the other with `sep` between them. -/
abbrev joinWith (sep : Bytes) (pieces : List Bytes) : Bytes := sep.intercalate pieces

/-- The text without its final `b`s. -/
def trimEnd (b : UInt8) (s : Bytes) : Bytes := (s.reverse.dropWhile (· == b)).reverse

/-- The text with every occurrence of the byte `b` replaced by `new`. -/
def replaceByte (b : UInt8) (new : Bytes) (s : Bytes) : Bytes :=
  s.flatMap fun c => if c = b then new else [c]

/-! ### Numbers -/

/-- A natural number in decimal. -/
def ofNat (n : Nat) : Bytes := ofString (Nat.repr n)

/-- An integer in decimal, with a minus sign below zero. -/
def ofInt : Int → Bytes
  | .ofNat n => ofNat n
  | .negSucc n => 0x2d :: ofNat (n + 1)

/-- The lower-case hexadecimal digit of a number below sixteen. -/
def hexDigit (n : Nat) : UInt8 := if n < 10 then (0x30 + n).toUInt8 else (0x57 + n).toUInt8

/-- The last `width` hexadecimal digits of `n`. -/
def hexPadded : (width : Nat) → Nat → Bytes
  | 0, _ => []
  | w + 1, n => hexPadded w (n / 16) ++ [hexDigit (n % 16)]

/-- Two hexadecimal digits for every byte. -/
def toHex (s : Bytes) : Bytes := s.flatMap fun b => hexPadded 2 b.toNat

/-- The value of a hexadecimal digit in either case. -/
def hexValue? (b : UInt8) : Option Nat :=
  if isDigit b then some (b.toNat - 0x30)
  else if 0x61 ≤ b && b ≤ 0x66 then some (b.toNat - 0x57)
  else if 0x41 ≤ b && b ≤ 0x46 then some (b.toNat - 0x37)
  else none

/-- The value of a run of decimal digits. -/
def digitsValue (s : Bytes) : Nat := s.foldl (fun n b => n * 10 + (b.toNat - 0x30)) 0

/-- The last `width` octal digits of `n`. -/
def octalPadded : (width : Nat) → Nat → Bytes
  | 0, _ => []
  | w + 1, n => octalPadded w (n / 8) ++ [(0x30 + n % 8).toUInt8]

end Bytes

end Spotlight
