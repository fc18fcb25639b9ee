import Spotlight.Scan.State

/-!
# Strings and braces that close

* `Scan.stringEnd?` — the offset of the delimiter that closes a string;
* `Scan.matchBrace?` — the offset just past the brace that closes another.
-/

namespace Spotlight.Scan

open Bytes

/-- The offset of the first byte after which the scanner is back in the outermost code level, for
a text that starts at offset `i` and is entered in state `s`. -/
def returnFrom? (i : Nat) (s : State) : Bytes → Option Nat
  | [] => none
  | b :: rest =>
    let s' := s.step b rest.head?
    if s'.mode == .code && s'.outer.isEmpty then some i else returnFrom? (i + 1) s' rest

/-- The offset of the delimiter that closes the string opened at `start`, or of the last byte of
the text when the string stays open. The byte at `start` is the delimiter, whatever it is; there
is no answer past the end of the text. -/
def stringEnd? (src : Bytes) (start : Nat) : Option Nat :=
  match src.drop start with
  | [] => none
  | q :: rest =>
    some ((returnFrom? (start + 1) { mode := .string q } rest).getD (src.length - 1))

/-- The offset just past the closing brace at depth one, the first among `vs`. -/
def braceEnd? (vs : List Visit) : Option Nat :=
  (vs.find? fun v => v.byte == rbrace && v.depth == 1).map (·.offset + 1)

/-- The offset just past the brace that closes the one at `start`. -/
def matchBrace? (src : Bytes) (start : Nat) : Option Nat := braceEnd? (visits src start)

end Spotlight.Scan
