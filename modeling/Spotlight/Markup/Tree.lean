import Spotlight.Text.Bytes

/-!
# Marked-up documents

The parts of a document in markdown: blocks, which follow each other down the page, and the inline
parts of a line of text.
-/

namespace Spotlight.Markup

/-- Where a link or an image points to. -/
structure Target where
  /-- The destination, as written. -/
  destination : Bytes
  /-- The title, as written, if there is one. -/
  title : Option Bytes
deriving DecidableEq, Repr

/-- A part of a line of text. -/
inductive Inline
  /-- Plain text, as written: its escapes and entities stand for characters. -/
  | text (source : Bytes)
  /-- The end of a line; a hard one stays a line end on the page. -/
  | lineEnd (hard : Bool)
  /-- A code span. -/
  | code (text : Bytes)
  /-- Emphasis, or strong emphasis. -/
  | emphasis (strong : Bool) (body : List Inline)
  /-- A link. -/
  | link (target : Target) (body : List Inline)
  /-- An image with its description. -/
  | image (target : Target) (body : List Inline)
  /-- An address between angle brackets. -/
  | address (email : Bool) (text : Bytes)
  /-- A piece of HTML. -/
  | html
deriving Inhabited

/-- A block of a document. Inline text is given as written. -/
inductive Block
  /-- A heading. -/
  | heading (level : Nat) (text : Bytes)
  /-- A paragraph. -/
  | paragraph (text : Bytes)
  /-- A block of code, with the info text of its fence if it has one. -/
  | code (info : Option Bytes) (text : Bytes)
  /-- A thematic break. -/
  | rule
  /-- A block of HTML; `closed` says whether it has a last line of its own that closes it. -/
  | html (closed : Bool)
  /-- A block quote. -/
  | quote (body : List Block)
  /-- A list, numbered from `start` on if it is ordered. -/
  | list (start : Option Nat) (tight : Bool) (items : List (List Block))
deriving Inhabited

/-- The link targets that are defined by a label, the first definition first. -/
abbrev References := List (Bytes × Target)

/-- Is `b` white space in a document? -/
def isSpace (b : UInt8) : Bool := b == 0x20 || (0x09 ≤ b && b ≤ 0x0d)

/-- A label without regard to case and to the amount of white space. -/
def normalLabel (s : Bytes) : Bytes :=
  let words := (s.map fun b => if isSpace b then Bytes.space else b).splitOn Bytes.space
  (Bytes.joinWith [Bytes.space] (words.filter fun w => !w.isEmpty)).map Bytes.toLower

/-- The target a label stands for. -/
def References.find? (refs : References) (label : Bytes) : Option Target :=
  List.lookup (normalLabel label) refs

end Spotlight.Markup
