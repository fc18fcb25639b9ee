import Spotlight.Scan.State
import Spotlight.Text.Literal

/-!
# Headers of groups

A group of tests is a call such as `describe('name', () => {`. Its header runs from the keyword to
the brace that opens the body; `async () => {` and `function () {` are headers too. White space is
allowed between the parts.

* `Group.NamePattern` — the names a search accepts;
* `Group.readHeader?` — the header at the head of a text;
* `Group.headers` — all headers of a text, from left to right without overlap;
* `Group.topLevel` — those that start in code at brace depth zero.
-/

namespace Spotlight.Group

open Bytes

/-- Past tabs, line ends, form feeds and spaces. -/
def skipBlanks (s : Bytes) : Bytes := s.dropWhile isBlank

/-- The text between `q` at the head of `s`, up to the next `q`, and what follows that. -/
def untilQuote? (q : UInt8) (stop : UInt8 → Bool) (s : Bytes) : Option (Bytes × Bytes) :=
  let name := s.takeWhile fun b => !stop b
  match s.dropWhile fun b => !stop b with
  | b :: rest => if b = q then some (name, rest) else none
  | [] => none

/-- The names a search for headers accepts. -/
inductive NamePattern
  /-- The given name, between quotes of any kind, which need not be the same. -/
  | exactly (name : Bytes)
  /-- Any name between two quotes of the same kind. Only a name in grave accents may go over the
  end of a line. -/
  | any

/-- The name at the head of a text, and what follows its closing quote. -/
def NamePattern.read? : NamePattern → Bytes → Option (Bytes × Bytes)
  | _, [] => none
  | .exactly name, q :: s =>
    if Scan.isDelimiter q then
      match Literal.strip? name s with
      | some (q' :: rest) => if Scan.isDelimiter q' then some (name, rest) else none
      | _ => none
    else none
  | .any, q :: s =>
    if q = apostrophe || q = quote then untilQuote? q (fun b => b == q || b == lf) s
    else if q = grave then untilQuote? q (fun b => b == q) s
    else none

/-- Is there a word boundary between the two bytes, one of which is a word byte? -/
def isBoundary (before after : Option UInt8) : Bool :=
  before.any isWord != after.any isWord

/-- Past an empty parameter list. -/
def stripParams? (s : Bytes) : Option Bytes :=
  (Bytes.strip? [lparen] s).bind fun s => Bytes.strip? [rparen] (skipBlanks s)

/-- Past `() =>`. -/
def stripArrow? (s : Bytes) : Option Bytes :=
  (stripParams? s).bind fun s => Bytes.strip? "=>" (skipBlanks s)

/-- Past `function ()`. -/
def stripFunction? (s : Bytes) : Option Bytes :=
  (Bytes.strip? "function" s).bind fun s => stripParams? (skipBlanks s)

/-- Past the word `async` and the white space after it, where it is given. -/
def skipAsync (s : Bytes) : Bytes :=
  match Bytes.strip? "async" s with
  | some rest => skipBlanks rest
  | none => s

/-- The header at the head of a text that has the byte `before` in front of it: the name, and what
follows the opening brace. -/
def readHeader? (keyword : Bytes) (names : NamePattern) (before : Option UInt8) (s : Bytes) :
    Option (Bytes × Bytes) := do
  guard (isBoundary before s.head?)
  let s ← Literal.strip? keyword s
  let s ← Bytes.strip? [lparen] s
  let (name, s) ← names.read? (skipBlanks s)
  let s ← Bytes.strip? [comma] (skipBlanks s)
  let s := skipAsync (skipBlanks s)
  let s ← (stripArrow? s).orElse fun _ => stripFunction? s
  let s ← Bytes.strip? [lbrace] (skipBlanks s)
  return (name, s)

/-- A header in a text. -/
structure Header where
  /-- The offset of the keyword. -/
  start : Nat
  /-- The offset just past the brace. -/
  stop : Nat
  /-- The name, without its quotes. -/
  name : Bytes
deriving DecidableEq, Repr

/-- The headers of a text that starts at offset `i` with the byte `before` in front of it, of which
the first `skip` bytes belong to a header already found. -/
def headersFrom (keyword : Bytes) (names : NamePattern) :
    (skip i : Nat) → (before : Option UInt8) → Bytes → List Header
  | _, _, _, [] => []
  | skip + 1, i, _, b :: s => headersFrom keyword names skip (i + 1) (some b) s
  | 0, i, before, b :: s =>
    match readHeader? keyword names before (b :: s) with
    | some (name, rest) =>
      ⟨i, i + 1 + (s.length - rest.length), name⟩ ::
        headersFrom keyword names (s.length - rest.length) (i + 1) (some b) s
    | none => headersFrom keyword names 0 (i + 1) (some b) s

/-- All headers of a text, from left to right without overlap. -/
def headers (keyword : Bytes) (names : NamePattern) (src : Bytes) : List Header :=
  headersFrom keyword names 0 0 none src

/-- The headers of a text that start in code at brace depth zero. -/
def topLevel (keyword : Bytes) (names : NamePattern) (src : Bytes) : List Header :=
  match headers keyword names src with
  | [] => []
  | hs =>
    let vs := Scan.visits src 0
    hs.filter fun h => vs.any fun v => v.offset == h.start && v.depth == 0

/-- The names of the groups at the top level of `src`, in order. -/
def names (keyword src : Bytes) : List Bytes := (topLevel keyword .any src).map Header.name

end Spotlight.Group
