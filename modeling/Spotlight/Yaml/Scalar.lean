import Spotlight.Yaml.Cursor

/-!
# Scalars of a YAML text

* `Scalar.plain` — a scalar without quotes;
* `Scalar.single`, `Scalar.double` — a scalar between quotes;
* `Scalar.block` — the indented lines behind a `|` or `>`.

Each is read from a cursor at its start, and gives its characters and the cursor behind it.
-/

namespace Spotlight.Yaml.Scalar

/-! ### Plain scalars -/

/-- Does a plain scalar end in front of the next character? -/
def endsPlain (flow : Bool) (c : Cursor) : Bool :=
  match c.peek with
  | none => true
  | some ch =>
    isBlank ch || isBreak ch || (ch == ':' && c.endsAfter 1) ||
      (flow && [',', '?', '[', ']', '{', '}'].contains ch)

/-- The characters up to the end of a word. -/
def plainWord (flow : Bool) : (fuel : Nat) → Cursor → List Char × Cursor
  | 0, c => ([], c)
  | fuel + 1, c =>
    if endsPlain flow c then ([], c)
    else
      let (word, c') := plainWord flow fuel (c.skip 1)
      (c.rest.take 1 ++ word, c')

/-- The words of a plain scalar behind a gap, and whether it ends behind a line end. Further lines
must reach the column `indent`, unless the scalar stands between brackets. -/
def plainWords (flow : Bool) (indent : Int) : (fuel : Nat) → Gap → Cursor →
    Option (List Char × Cursor × Bool)
  | 0, _, _ => none
  | fuel + 1, gap, c =>
    if c.atDocumentMark || c.sees '#' then some ([], c, gap.broken)
    else
      let (word, c) := plainWord flow (c.rest.length + 1) c
      let text := if word.isEmpty then [] else gap.text ++ word
      let gap : Gap := if word.isEmpty then gap else {}
      if !(c.atBlank || c.atBreak) then some (text, c, gap.broken)
      else do
        let (gap, c) ← Gap.read (some indent) (c.rest.length + 1) gap c
        if !flow && (c.column : Int) < indent then return (text, c, gap.broken)
        let (more, c, broken) ← plainWords flow indent fuel gap c
        return (text ++ more, c, broken)

/-- A scalar without quotes, and whether a line end follows it. -/
def plain (flow : Bool) (indent : Int) (c : Cursor) : Option (List Char × Cursor × Bool) :=
  plainWords flow indent (c.rest.length + 1) {} c

/-! ### Scalars between quotes -/

/-- The characters of a word between single quotes. A quote is written twice. -/
def singleWord : (fuel : Nat) → Cursor → List Char × Cursor
  | 0, c => ([], c)
  | fuel + 1, c =>
    match c.rest with
    | '\'' :: '\'' :: _ =>
      let (word, c) := singleWord fuel (c.skip 2)
      ('\'' :: word, c)
    | ch :: _ =>
      if ch == '\'' || isBlank ch || isBreak ch then ([], c)
      else
        let (word, c) := singleWord fuel (c.skip 1)
        (ch :: word, c)
    | [] => ([], c)

/-- The character a one-letter escape stands for. -/
def escaped? (ch : Char) : Option Char :=
  match ch with
  | '0' => some '\x00'
  | 'a' => some '\x07'
  | 'b' => some '\x08'
  | 't' => some '\t'
  | '\t' => some '\t'
  | 'n' => some '\n'
  | 'v' => some '\x0b'
  | 'f' => some '\x0c'
  | 'r' => some '\r'
  | 'e' => some '\x1b'
  | ' ' => some ' '
  | '"' => some '"'
  | '\'' => some '\''
  | '\\' => some '\\'
  | 'N' => some '\u0085'
  | '_' => some '\u00a0'
  | 'L' => some '\u2028'
  | 'P' => some '\u2029'
  | _ => none

/-- How many digits the code of a character has behind a letter. -/
def codeWidth (ch : Char) : Nat :=
  if ch == 'x' then 2 else if ch == 'u' then 4 else if ch == 'U' then 8 else 0

/-- The character whose code is written in hexadecimal digits. -/
def ofCode? (digits : List Char) : Option Char := do
  let values ← digits.mapM fun d => Bytes.hexValue? d.toNat.toUInt8
  if digits.any fun d => 0x80 ≤ d.toNat then none
  let code := values.foldl (fun n v => n * 16 + v) 0
  if Rune.isScalar code then some (Char.ofNat code) else none

/-- The characters of a word between double quotes, and whether it ends in an escaped line end. -/
def doubleWord : (fuel : Nat) → Cursor → Option (List Char × Cursor × Bool)
  | 0, _ => none
  | fuel + 1, c =>
    match c.rest with
    | [] => some ([], c, false)
    | '\\' :: ch :: rest =>
      if isBreak ch then some ([], (c.skip 1).skipBreak, true)
      else match escaped? ch with
        | some e => do
          let (word, c, joined) ← doubleWord fuel (c.skip 2)
          return (e :: word, c, joined)
        | none => do
          let width := codeWidth ch
          if width = 0 || rest.length < width then none
          let e ← ofCode? (rest.take width)
          let (word, c, joined) ← doubleWord fuel (c.skip (2 + width))
          return (e :: word, c, joined)
    | ch :: _ =>
      if ch == '"' || isBlank ch || isBreak ch then some ([], c, false)
      else if ch == '\\' then none
      else do
        let (word, c, joined) ← doubleWord fuel (c.skip 1)
        return (ch :: word, c, joined)

/-- The words of a scalar up to its closing quote. -/
def quotedWords (double : Bool) : (fuel : Nat) → Cursor → Option (List Char × Cursor)
  | 0, _ => none
  | fuel + 1, c =>
    if c.atDocumentMark || c.rest.isEmpty then none
    else do
      let (word, c, joined) ←
        if double then doubleWord (c.rest.length + 1) c
        else
          let (word, c) := singleWord (c.rest.length + 1) c
          some (word, c, false)
      if c.sees (if double then '"' else '\'') then return (word, c.skip 1)
      let (gap, c) ← Gap.read none (c.rest.length + 1) { broken := joined } c
      let (more, c) ← quotedWords double fuel c
      return (word ++ gap.text ++ more, c)

/-- A scalar between single quotes. -/
def single (c : Cursor) : Option (List Char × Cursor) :=
  quotedWords false (c.rest.length + 1) (c.skip 1)

/-- A scalar between double quotes. -/
def double (c : Cursor) : Option (List Char × Cursor) :=
  quotedWords true (c.rest.length + 1) (c.skip 1)

/-! ### Block scalars -/

/-- What becomes of the line ends at the end of a block scalar. -/
inductive Chomp
  /-- All are dropped. -/
  | strip
  /-- One stays. -/
  | clip
  /-- All stay. -/
  | keep
deriving DecidableEq

/-- The sign for the end of a block scalar. -/
def chomp? (c : Cursor) : Option (Chomp × Cursor) :=
  if c.sees '-' then some (.strip, c.skip 1)
  else if c.sees '+' then some (.keep, c.skip 1)
  else none

/-- The digit for the indentation of a block scalar; zero is refused. -/
def indentDigit? (c : Cursor) : Option (Nat × Cursor) :=
  match c.peek with
  | some ch =>
    if ch == '0' then none
    else if ch.isDigit then some (ch.toNat - '0'.toNat, c.skip 1)
    else some (0, c)
  | none => some (0, c)

/-- The signs behind the indicator of a block scalar, in either order. -/
def blockHeader (c : Cursor) : Option (Chomp × Nat × Cursor) :=
  match chomp? c with
  | some (chomp, c) => do
    let (digit, c) ← indentDigit? c
    return (chomp, digit, c)
  | none => do
    let (digit, c) ← indentDigit? c
    if digit = 0 then return (.clip, 0, c)
    let (chomp, c) := (chomp? c).getD (.clip, c)
    return (chomp, digit, c)

/-- Past the blanks, the comment and the end of a line. -/
def endLine (c : Cursor) : Option Cursor :=
  let c := c.skipWhile isBlank
  let c := if c.sees '#' then c.skipWhile (fun ch => !isBreak ch) else c
  if c.rest.isEmpty || c.atBreak then some c.skipBreak else none

/-- Past indentation and empty lines. The result has the line ends and the widest indentation; an
`indent` of zero is not known yet. -/
def blockBreaks (indent : Nat) : (fuel : Nat) → (widest : Nat) → Cursor →
    Option (List Char × Nat × Cursor)
  | 0, _, _ => none
  | fuel + 1, widest, c =>
    let room := if indent = 0 then c.rest.length else indent - c.column
    let c := c.skip ((c.rest.take room).takeWhile (· == ' ')).length
    let widest := max widest c.column
    if (indent = 0 || c.column < indent) && c.sees '\t' then none
    else if !c.atBreak then some ([], widest, c)
    else do
      let (breaks, widest, after) ← blockBreaks indent fuel widest c.skipBreak
      return (c.breakText ++ breaks, widest, after)

/-- The lines of a block scalar: its text, the line end of its last line and those behind it.
`ended` is the line end of the line in front, `more` are the empty lines behind that, and `indented`
tells whether that line started with a blank. -/
def blockLines (literal : Bool) (indent : Nat) : (fuel : Nat) → (ended more : List Char) →
    (indented : Bool) → Cursor → Option (List Char × List Char × List Char × Cursor)
  | 0, _, _, _, _ => none
  | fuel + 1, ended, more, indented, c =>
    if c.column != indent || c.rest.isEmpty then some ([], ended, more, c)
    else do
      let blank := c.atBlank
      let joint :=
        if !literal && !indented && !blank && ended == ['\n'] then
          (if more.isEmpty then [' '] else more)
        else ended ++ more
      let line := c.rest.takeWhile (fun ch => !isBreak ch)
      let c := c.skip line.length
      let (breaks, _, after) ← blockBreaks indent (c.rest.length + 1) 0 c.skipBreak
      let (text, ended, more, c) ←
        blockLines literal indent fuel c.breakText breaks blank after
      return (joint ++ line ++ text, ended, more, c)

/-- The lines behind the indicator of a block scalar, inside a block at the column `outer`. -/
def block (literal : Bool) (outer : Int) (c : Cursor) : Option (List Char × Cursor) := do
  let (chomp, digit, c) ← blockHeader (c.skip 1)
  let c ← endLine c
  let indent := if digit = 0 then 0 else (max outer 0).toNat + digit
  let (breaks, widest, c) ← blockBreaks indent (c.rest.length + 1) 0 c
  let indent := if indent = 0 then max (max widest (outer + 1).toNat) 1 else indent
  let (text, ended, more, c) ← blockLines literal indent (c.rest.length + 1) [] breaks false c
  return (text ++ (if chomp = .strip then [] else ended) ++ (if chomp = .keep then more else []), c)

end Spotlight.Yaml.Scalar
