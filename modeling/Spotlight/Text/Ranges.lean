import Spotlight.Text.Bytes

/-!
# Tables of code points

A property of characters is given as a table of ranges in ascending order, written in hexadecimal:
`first-last` or a single code point, divided by spaces.

* `Ranges.ofRows` — reads a table;
* `Ranges.hold` — does some range hold a code point?
-/

namespace Spotlight.Ranges

/-- The number a run of hexadecimal digits stands for. -/
def hexNumber (s : Bytes) : Nat :=
  s.foldl (fun n b => n * 16 + (Bytes.hexValue? b).getD 0) 0

/-- Reads one range of the table. -/
def ofText (s : Bytes) : Nat × Nat :=
  match Bytes.splitOn 0x2d s with
  | [one] => (hexNumber one, hexNumber one)
  | first :: last :: _ => (hexNumber first, hexNumber last)
  | [] => (0, 0)

/-- Reads a table that is given row by row. -/
def ofRows (rows : List String) : Array (Nat × Nat) :=
  (rows.flatMap fun row => (Bytes.splitOn Bytes.space (Bytes.ofString row)).map ofText).toArray

/-- Does some range hold the code point? -/
def hold (ranges : Array (Nat × Nat)) (code : Nat) : Bool :=
  ranges.any fun (first, last) => first ≤ code && code ≤ last

end Spotlight.Ranges
