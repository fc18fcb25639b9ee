import Spotlight.Text.Bytes

/-!
# Scanning source text

A test file is scanned byte by byte with one byte of lookahead. The scanner tells code apart from
comments, strings and template literals, and counts braces. A substitution in a template is code
again, so the scanner keeps the brace depths of the code levels around it on a stack.

* `Scan.State` — what the scanner is inside of, and how deep;
* `Scan.State.step` — the state after one byte;
* `Scan.State.shows` — is the byte a byte of the outermost code level?
* `Scan.visits` — those bytes of a text, each with the brace depth in force before it.

Regular expression literals are not recognised: a quote or brace inside one counts as code.
-/

namespace Spotlight.Scan

open Bytes

/-- What the scanner is inside of. -/
inductive Mode
  /-- Plain code. -/
  | code
  /-- A line comment. -/
  | line
  /-- The second byte of the pair that opens a block comment. -/
  | opening
  /-- A block comment. -/
  | block
  /-- The second byte of the pair that closes a block comment. -/
  | closing
  /-- A string with the given delimiter; a template literal when that is a grave accent. -/
  | string (delimiter : UInt8)
  /-- The byte after a backslash in a string. -/
  | escape (delimiter : UInt8)
deriving DecidableEq, Repr

/-- A state of the scanner. -/
structure State where
  /-- What the scanner is inside of. -/
  mode : Mode := .code
  /-- The brace depth of the innermost code level. -/
  depth : Int := 0
  /-- The depths of the code levels around it, one for every open substitution. -/
  outer : List Int := []
deriving DecidableEq, Repr

/-- The state at the start of a text: code, at depth zero. -/
def State.start : State := {}

/-- Does `b` open a string? -/
def isDelimiter (b : UInt8) : Bool := b == apostrophe || b == quote || b == grave

/-- Does `b`, with `next` after it, open a comment? -/
def opensComment (b : UInt8) (next : Option UInt8) : Bool :=
  b == slash && (next == some slash || next == some star)

namespace State

/-- A closing brace. It ends the innermost substitution when it closes the brace that opened it. -/
def closeBrace (s : State) : State :=
  match s.outer with
  | [] => { s with depth := s.depth - 1 }
  | d :: outer =>
    if s.depth = 1 then { mode := .string grave, depth := d, outer := outer }
    else { s with depth := s.depth - 1 }

/-- One byte of code. -/
def stepCode (s : State) (b : UInt8) (next : Option UInt8) : State :=
  if b == slash && next == some slash then { s with mode := .line }
  else if b == slash && next == some star then { s with mode := .opening }
  else if isDelimiter b then { s with mode := .string b }
  else if b == lbrace then { s with depth := s.depth + 1 }
  else if b == rbrace then s.closeBrace
  else s

/-- One byte of a string with delimiter `q`. A backslash takes the next byte with it, a line feed
ends every string but a template, and a dollar sign before a brace opens a substitution in one. -/
def stepString (s : State) (q b : UInt8) (next : Option UInt8) : State :=
  if b == backslash then { s with mode := .escape q }
  else if b == q then { s with mode := .code }
  else if b == lf && q != grave then { s with mode := .code }
  else if b == dollar && q == grave && next == some lbrace then
    { mode := .code, depth := 0, outer := s.depth :: s.outer }
  else s

/-- The state after the byte `b`, with `next` the byte that follows it. -/
def step (s : State) (b : UInt8) (next : Option UInt8) : State :=
  match s.mode with
  | .code => s.stepCode b next
  | .line => if b == lf then { s with mode := .code } else s
  | .opening => { s with mode := .block }
  | .block => if b == star && next == some slash then { s with mode := .closing } else s
  | .closing => { s with mode := .code }
  | .string q => s.stepString q b next
  | .escape q => { s with mode := .string q }

/-- Is the byte `b` a byte of the outermost code level? Comments and strings are no code, their
delimiters included. -/
def shows (s : State) (b : UInt8) (next : Option UInt8) : Bool :=
  s.mode == .code && s.outer.isEmpty && !opensComment b next && !isDelimiter b

/-- The state after all bytes of a text, with `next` the byte that follows it. -/
def run (s : State) : Bytes → (next : Option UInt8) → State
  | [], _ => s
  | b :: rest, next => (s.step b (rest.head?.or next)).run rest next

end State

/-- A byte of code: where it stands, and the brace depth in force before it. -/
structure Visit where
  /-- The offset of the byte. -/
  offset : Nat
  /-- The byte. -/
  byte : UInt8
  /-- The brace depth before it. -/
  depth : Int
deriving DecidableEq, Repr

/-- The code bytes of a text that starts at offset `i` and is entered in state `s`. -/
def visitsFrom (i : Nat) (s : State) : Bytes → List Visit
  | [] => []
  | b :: rest =>
    let more := visitsFrom (i + 1) (s.step b rest.head?) rest
    if s.shows b rest.head? then ⟨i, b, s.depth⟩ :: more else more

/-- The code bytes of `src` from offset `start` on. Depths count from there. -/
def visits (src : Bytes) (start : Nat) : List Visit :=
  visitsFrom start State.start (src.drop start)

end Spotlight.Scan
