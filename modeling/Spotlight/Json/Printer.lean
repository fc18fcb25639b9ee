import Spotlight.Json.Value

/-!
# Writing JSON

* `Json.quoted` — a string between quotes. Besides what JSON asks for, the characters that are
  special in HTML and the two line separators of Unicode are written as escapes;
* `Json.Value.print` — a value on several lines, two spaces to a level.
-/

namespace Spotlight.Json

open Bytes

/-- A code unit as an escape. -/
def unitEscape (code : Nat) : Bytes := "\\u" ++ hexPadded 4 code

/-- A character of a string between quotes. -/
def quotedRune (r : Rune) : Bytes :=
  if r.isMalformed then unitEscape Rune.replacement
  else if r.code = 0x22 || r.code = 0x5c then backslash :: r.raw
  else if r.code = 0x08 then "\\b"
  else if r.code = 0x0c then "\\f"
  else if r.code = 0x0a then "\\n"
  else if r.code = 0x0d then "\\r"
  else if r.code = 0x09 then "\\t"
  else if r.code < 0x20 || r.code = 0x3c || r.code = 0x3e || r.code = 0x26 || r.code = 0x2028 ||
    r.code = 0x2029 then unitEscape r.code
  else r.raw

/-- A string between quotes. -/
def quoted (s : Bytes) : Bytes := "\"" ++ (Rune.ofBytes s).flatMap quotedRune ++ "\""

/-- A line break and the indentation of a level. -/
def newline (level : Nat) : Bytes := lf :: List.replicate (2 * level) space

mutual

/-- A value on several lines; it starts at a level. -/
def Value.printAt (level : Nat) : Value → Bytes
  | .null => "null"
  | .bool b => if b then "true" else "false"
  | .number literal => literal
  | .string s => quoted s
  | .array [] => "[]"
  | .array (v :: vs) =>
    lbracket :: newline (level + 1) ++ v.printAt (level + 1) ++ printItems (level + 1) vs ++
      newline level ++ [rbracket]
  | .object [] => [lbrace, rbrace]
  | .object ((key, v) :: ms) =>
    lbrace :: newline (level + 1) ++ quoted key ++ ": " ++ v.printAt (level + 1) ++
      printMembers (level + 1) ms ++ newline level ++ [rbrace]

/-- The items of an array behind the first. -/
def printItems (level : Nat) : List Value → Bytes
  | [] => []
  | v :: vs => comma :: newline level ++ v.printAt level ++ printItems level vs

/-- The members of an object behind the first. -/
def printMembers (level : Nat) : List (Bytes × Value) → Bytes
  | [] => []
  | (key, v) :: ms =>
    comma :: newline level ++ quoted key ++ ": " ++ v.printAt level ++ printMembers level ms

end

/-- A value on several lines. -/
def Value.print (v : Value) : Bytes := v.printAt 0

end Spotlight.Json
