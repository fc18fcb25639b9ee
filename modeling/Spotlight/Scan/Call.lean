import Spotlight.Scan.Brace

/-!
# The end of a call

The body of a group ends with a closing brace; the call around it goes on with further arguments,
a closing parenthesis and perhaps a semicolon.

* `Scan.skipSpace` — past spaces and tabs, and line ends where they are allowed;
* `Scan.leadingSpace` — the start of the white space that ends at an offset;
* `Scan.argsEnd?` — the parenthesis that closes an argument list;
* `Scan.closeCall?` — the end of the whole call.
-/

namespace Spotlight.Scan

open Bytes

/-- Is `b` a space or a tab, or, with `newlines`, the end of a line? -/
def isGap (newlines : Bool) (b : UInt8) : Bool :=
  b == space || b == tab || (newlines && (b == lf || b == cr))

/-- The first offset at or after `i` that holds no space. -/
def skipSpace (src : Bytes) (i : Nat) (newlines : Bool) : Nat :=
  i + ((src.drop i).takeWhile (isGap newlines)).length

/-- Is `b` white space in ASCII, the vertical tab included? -/
def isSpace (b : UInt8) : Bool := isBlank b || b == 0x0b

/-- The start of the white space that ends at `i`. -/
def leadingSpace (src : Bytes) (i : Nat) : Nat :=
  i - ((src.take i).reverse.takeWhile isSpace).length

/-- The parenthesis that closes an argument list, found among code bytes with `opened` parentheses
and brackets still open. There is none when the statement or the block around it ends first. -/
def closingParen? : (opened : Int) → List Visit → Option Nat
  | _, [] => none
  | opened, v :: vs =>
    if v.byte == lparen || v.byte == lbracket then closingParen? (opened + 1) vs
    else if v.byte == rparen && opened == 0 && v.depth == 0 then some v.offset
    else if v.byte == rparen || v.byte == rbracket then closingParen? (opened - 1) vs
    else if (v.byte == rbrace && v.depth == 0) ||
        (v.byte == semicolon && v.depth == 0 && opened == 0) then none
    else closingParen? opened vs

/-- The offset of the parenthesis that closes the argument list going on at `start`. -/
def argsEnd? (src : Bytes) (start : Nat) : Option Nat := closingParen? 0 (visits src start)

/-- Past the closing parenthesis at `i`, and past the semicolon after it if there is one. -/
def closeParen? (src : Bytes) (i : Nat) : Option Nat :=
  if src[i]? == some rparen then
    let j := skipSpace src (i + 1) false
    if src[j]? == some semicolon then some (j + 1) else some (i + 1)
  else none

/-- The end of the call whose body has its closing brace just before `i`. Trailing arguments, such
as a timeout, are skipped. -/
def closeCall? (src : Bytes) (i : Nat) : Option Nat :=
  let j := skipSpace src i true
  if src[j]? == some comma then (argsEnd? src (j + 1)).bind (closeParen? src)
  else closeParen? src j

end Spotlight.Scan
