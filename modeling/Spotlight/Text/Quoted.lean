import Spotlight.Text.Printable
import Spotlight.Text.Rune

/-!
# Quoted texts in messages

A text inside a message stands between double quotes, with everything escaped that would not print:
`Quoted.text` writes it on one line of printable characters.
-/

namespace Spotlight.Quoted

/-- The escape of a character that does not print. -/
def escape (code : Nat) : Bytes :=
  if code = 0x07 then "\\a"
  else if code = 0x08 then "\\b"
  else if code = 0x0c then "\\f"
  else if code = 0x0a then "\\n"
  else if code = 0x0d then "\\r"
  else if code = 0x09 then "\\t"
  else if code = 0x0b then "\\v"
  else if code < 0x80 then "\\x" ++ Bytes.hexPadded 2 code
  else if code < 0x10000 then "\\u" ++ Bytes.hexPadded 4 code
  else "\\U" ++ Bytes.hexPadded 8 code

/-- One character between double quotes. -/
def rune (r : Rune) : Bytes :=
  if r.isMalformed then "\\x" ++ Bytes.toHex r.raw
  else if r.code = 0x22 || r.code = 0x5c then Bytes.backslash :: r.raw
  else if Printable.isPrintable r.code then r.raw
  else escape r.code

/-- A character between single quotes. -/
def char (code : Nat) : Bytes :=
  "'" ++ (if code = 0x27 || code = 0x5c then [Bytes.backslash, code.toUInt8]
    else if Printable.isPrintable code then Rune.encode code
    else escape code) ++ "'"

/-- The text between double quotes. -/
def text (s : Bytes) : Bytes := "\"" ++ (Rune.ofBytes s).flatMap rune ++ "\""

end Spotlight.Quoted
