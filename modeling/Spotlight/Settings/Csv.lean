import Spotlight.Text.Bytes

/-!
# A record of comma-separated values

A list of texts is given as one record: its fields stand between commas, and a field between double
quotes may hold commas, line ends and, written twice, double quotes.

* `Csv.Fault` — why a text is no record, and `Csv.Fault.message` the wording;
* `Csv.record` — the fields of the first record of a text.
-/

namespace Spotlight.Csv

open Bytes

/-- Why a text is no record. Lines and columns count from one. -/
inductive Fault
  /-- All lines are empty. -/
  | nothing
  /-- A double quote inside a field without quotes. -/
  | bareQuote (start line column : Nat)
  /-- Text behind a closing quote, or no closing quote. -/
  | strayQuote (start line column : Nat)
deriving DecidableEq, Repr

/-- Where a fault lies. The first line of the record is told if the fault lies further down. -/
def place (start line column : Nat) : Bytes :=
  let record : Bytes := "record on line " ++ ofNat start ++ "; "
  (if start = line then [] else record) ++
    "parse error on line " ++ ofNat line ++ ", column " ++ ofNat column ++ ": "

/-- The wording of a fault. -/
def Fault.message : Fault → Bytes
  | nothing => "EOF"
  | bareQuote start line column => place start line column ++ "bare \" in non-quoted-field"
  | strayQuote start line column =>
    place start line column ++ "extraneous or missing \" in quoted-field"

/-- The lines of a text, each with its line feed. The carriage return of a line end is dropped. -/
def lines (s : Bytes) : List Bytes :=
  let trim (line : Bytes) : Bytes := if line.getLast? = some cr then line.dropLast else line
  match (splitOn lf s).reverse with
  | [] => []
  | last :: front =>
    (front.reverse.map fun line => trim line ++ [lf]) ++
      (if (trim last).isEmpty then [] else [trim last])

/-- A line without its line feed. -/
def chomp (line : Bytes) : Bytes := if line.getLast? = some lf then line.dropLast else line

/-- A record that is being read: the fields so far, the rest of the line with its number and the
column it starts in, and the lines behind it. -/
structure Cursor where
  /-- The fields so far, the last one first. -/
  fields : List Bytes := []
  /-- The rest of the line. -/
  rest : Bytes
  /-- The number of the line. -/
  line : Nat
  /-- The column of the rest. -/
  column : Nat := 1
  /-- The lines behind it. -/
  more : List Bytes

/-- Reads on in a field between quotes; `field` is what it holds so far. -/
def quotedField (start : Nat) : (fuel : Nat) → (field : Bytes) → Cursor →
    Except Fault (Bytes × Cursor × Bool)
  | 0, _, c => .error (.strayQuote start c.line c.column)
  | fuel + 1, field, c =>
    let inside := c.rest.takeWhile (· != quote)
    let column := c.column + inside.length
    match c.rest.dropWhile (· != quote) with
    | _ :: 0x22 :: rest =>
      quotedField start fuel (field ++ inside ++ [quote]) { c with rest, column := column + 2 }
    | _ :: 0x2c :: rest => .ok (field ++ inside, { c with rest, column := column + 2 }, true)
    | _ :: rest =>
      if (chomp rest).isEmpty then .ok (field ++ inside, { c with rest := [] }, false)
      else .error (.strayQuote start c.line column)
    | [] =>
      if c.rest.isEmpty then .error (.strayQuote start c.line c.column)
      else match c.more with
        | [] => .error (.strayQuote start c.line column)
        | line :: more =>
          quotedField start fuel (field ++ inside)
            { c with rest := line, line := c.line + 1, column := 1, more }

/-- Reads the fields up to the end of a record. -/
def fields (start : Nat) : (fuel : Nat) → Cursor → Except Fault (List Bytes)
  | 0, c => .ok c.fields.reverse
  | fuel + 1, c =>
    match c.rest with
    | 0x22 :: rest => do
      let size := rest.length + (c.more.map List.length).sum
      let (field, c, again) ←
        quotedField start (size + 1) [] { c with rest, column := c.column + 1 }
      let c := { c with fields := field :: c.fields }
      if again then fields start fuel c else .ok c.fields.reverse
    | _ =>
      let field := c.rest.takeWhile (· != comma)
      let before := (chomp field).takeWhile (· != quote)
      if before.length < (chomp field).length then
        .error (.bareQuote start c.line (c.column + before.length))
      else match c.rest.dropWhile (· != comma) with
        | [] => .ok ((chomp field) :: c.fields).reverse
        | _ :: rest =>
          fields start fuel
            { c with fields := field :: c.fields, rest, column := c.column + field.length + 1 }

/-- Reads the first record among lines, of which the first has a number. -/
def firstRecord : (line : Nat) → List Bytes → Except Fault (List Bytes)
  | _, [] => .error .nothing
  | n, line :: more =>
    if (chomp line).isEmpty then firstRecord (n + 1) more
    else
      let size := line.length + (more.map List.length).sum
      fields n (size + 1) { rest := line, line := n, more }

/-- The fields of the first record of a text; the empty text has none. -/
def record (s : Bytes) : Except Fault (List Bytes) :=
  if s.isEmpty then .ok [] else firstRecord 1 (lines s)

end Spotlight.Csv
