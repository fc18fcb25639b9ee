import Spotlight.Text.Rune

/-!
# A place in a YAML text

* `Yaml.decode` — the characters of a file, if all of them may stand in a YAML text;
* `Yaml.Cursor` — a place in a text, with its line and column;
* `Yaml.Gap` — the white space between two words of a scalar, and what is left of it when lines are
  folded.
-/

namespace Spotlight.Yaml

/-- Is the character a space or a tab? -/
def isBlank (c : Char) : Bool := c == ' ' || c == '\t'

/-- Does the character end a line? -/
def isBreak (c : Char) : Bool :=
  c == '\n' || c == '\r' || c == '\u0085' || c == '\u2028' || c == '\u2029'

/-- May a character of that code stand in a text? -/
def isAllowed (code : Nat) : Bool :=
  code == 0x09 || code == 0x0a || code == 0x0d || (0x20 ≤ code && code ≤ 0x7e) || code == 0x85 ||
    (0xa0 ≤ code && code ≤ 0xd7ff) || (0xe000 ≤ code && code ≤ 0xfffd) || 0x10000 ≤ code

/-- The mark that may stand at the start of a text or line. -/
def byteOrderMark : Nat := 0xfeff

/-- The characters of a file, without a byte order mark at its start. -/
def decode (s : Bytes) : Option (List Char) :=
  let runes := Rune.ofBytes s
  let runes := if (runes.head?.map (·.code)) == some byteOrderMark then runes.tail else runes
  if runes.all fun r => !r.isMalformed && isAllowed r.code then
    some (runes.map fun r => Char.ofNat r.code)
  else none

/-- The bytes of some characters. -/
def encode (cs : List Char) : Bytes := cs.flatMap fun c => Rune.encode c.toNat

/-- A place in a text. -/
structure Cursor where
  /-- What follows. -/
  rest : List Char
  /-- How many characters there are in front of it. -/
  index : Nat := 0
  /-- The line, counted from zero. -/
  line : Nat := 0
  /-- The column, counted from zero. -/
  column : Nat := 0

namespace Cursor

/-- The next character. -/
def peek (c : Cursor) : Option Char := c.rest.head?

/-- Is `ch` the next character? -/
def sees (c : Cursor) (ch : Char) : Bool := c.peek == some ch

/-- Is the next character a space or a tab? -/
def atBlank (c : Cursor) : Bool := c.peek.any isBlank

/-- Is the next character the end of a line? -/
def atBreak (c : Cursor) : Bool := c.peek.any isBreak

/-- Do blanks, the end of the line or the end of the text follow behind `n` characters? -/
def endsAfter (c : Cursor) (n : Nat) : Bool := ((c.rest.drop n).head?).all fun ch => isBlank ch || isBreak ch

/-- Past `n` characters of a line. -/
def skip (c : Cursor) (n : Nat) : Cursor :=
  { c with rest := c.rest.drop n, index := c.index + n, column := c.column + n }

/-- Past the end of a line. -/
def skipBreak (c : Cursor) : Cursor :=
  match c.rest with
  | '\r' :: '\n' :: rest => ⟨rest, c.index + 2, c.line + 1, 0⟩
  | ch :: rest => if isBreak ch then ⟨rest, c.index + 1, c.line + 1, 0⟩ else c
  | [] => c

/-- The end of a line as it stands in a scalar. -/
def breakText (c : Cursor) : List Char :=
  match c.peek with
  | some ch =>
    if ch == '\u2028' || ch == '\u2029' then [ch] else if isBreak ch then ['\n'] else []
  | none => []

/-- Past the characters of a class. -/
def skipWhile (c : Cursor) (p : Char → Bool) : Cursor := c.skip (c.rest.takeWhile p).length

/-- Is this the start of a line that begins or ends a document? -/
def atDocumentMark (c : Cursor) : Bool :=
  c.column == 0 && (c.rest.take 3 == ['-', '-', '-'] || c.rest.take 3 == ['.', '.', '.']) && c.endsAfter 3

end Cursor

/-- The white space between two words of a scalar. -/
structure Gap where
  /-- The blanks in front of a line end. -/
  blanks : List Char := []
  /-- Is there a line end? -/
  broken : Bool := false
  /-- The first line end, if it counts. -/
  first : List Char := []
  /-- The other line ends. -/
  more : List Char := []

namespace Gap

/-- What is left of the white space. One line end becomes a space, several lose the first; the line
separators of Unicode stay. -/
def text (g : Gap) : List Char :=
  if !g.broken then g.blanks
  else if g.first == ['\n'] then (if g.more.isEmpty then [' '] else g.more)
  else g.first ++ g.more

/-- Reads white space. Tabs in front of a column are refused if a limit is set. -/
def read (limit : Option Int) : (fuel : Nat) → Gap → Cursor → Option (Gap × Cursor)
  | 0, g, c => some (g, c)
  | fuel + 1, g, c =>
    match c.peek with
    | none => some (g, c)
    | some ch =>
      if isBlank ch then
        if g.broken then
          if ch == '\t' && limit.any fun l => (c.column : Int) < l then none
          else read limit fuel g (c.skip 1)
        else read limit fuel { g with blanks := g.blanks ++ [ch] } (c.skip 1)
      else if isBreak ch then
        if g.broken then read limit fuel { g with more := g.more ++ c.breakText } c.skipBreak
        else read limit fuel { g with broken := true, first := c.breakText } c.skipBreak
      else some (g, c)

end Gap

end Spotlight.Yaml
