import Spotlight.Markup.Link
import Spotlight.Text.Blank

/-!
# The inline parts of a text

A text is read from left to right into items. Runs of `*` and `_` and opening brackets wait until the
part they belong to is closed; what is never closed is plain text.

* `Markup.Item` — a finished part, a run of delimiters or an opening bracket;
* `Markup.resolve` — emphasis, from the runs of delimiters;
* `Markup.inlines` — the parts of a text.
-/

namespace Spotlight.Markup

open Bytes

/-- A run of delimiters that may open or close emphasis. -/
structure Delimiter where
  /-- The delimiter. -/
  mark : UInt8
  /-- How many of them are left. -/
  left : Nat
  /-- How many there were. -/
  total : Nat
  /-- May it open emphasis? -/
  canOpen : Bool
  /-- May it close emphasis? -/
  canClose : Bool
deriving DecidableEq, Repr

/-- Something that was read from a text. -/
inductive Item
  /-- A finished part. -/
  | part (node : Inline)
  /-- A run of delimiters. -/
  | delimiter (d : Delimiter)
  /-- The opening bracket of a link or an image, with the text behind it. -/
  | bracket (image : Bool) (behind : Bytes)

/-- The item as it stands: what was not closed is plain text. -/
def Item.toInline : Item → Inline
  | part node => node
  | delimiter d => .text (List.replicate d.left d.mark)
  | bracket image _ => .text (if image then "![" else "[")

/-! ### Emphasis -/

/-- How many delimiters a pair of runs uses up: two for strong emphasis, one for emphasis. There is
none if one of the runs can both open and close and their lengths together are a multiple of three,
unless both are. -/
def Delimiter.uses (opener closer : Delimiter) : Nat :=
  if (opener.canClose || closer.canOpen) && (opener.total + closer.total) % 3 == 0 &&
      closer.total % 3 != 0 then 0
  else if 2 ≤ opener.left && 2 ≤ closer.left then 2
  else 1

/-- May `opener` be closed by `closer`? -/
def Delimiter.opens (opener closer : Delimiter) : Bool :=
  opener.canOpen && opener.mark == closer.mark && opener.uses closer != 0

/-- The nearest run that `closer` closes: the items behind it, the run and the items before it, all
with the last one first. -/
def findOpener? (closer : Delimiter) : List Item → Option (List Item × Delimiter × List Item)
  | [] => none
  | item :: items =>
    let further := (findOpener? closer items).map fun (inner, d, outer) => (item :: inner, d, outer)
    match item with
    | .delimiter d => if d.opens closer then some ([], d, items) else further
    | _ => further

/-- Closes emphasis with `closer` as often as it can, at most `fuel` times. -/
def closeEmphasis : (fuel : Nat) → (closer : Delimiter) → List Item → List Item
  | 0, closer, items => .delimiter closer :: items
  | fuel + 1, closer, items =>
    match findOpener? closer items with
    | none => .delimiter closer :: items
    | some (inner, opener, outer) =>
      let n := opener.uses closer
      let node := Inline.emphasis (n == 2) (inner.reverse.map Item.toInline)
      let outer := if opener.left ≤ n then outer
        else .delimiter { opener with left := opener.left - n } :: outer
      if closer.left ≤ n then .part node :: outer
      else closeEmphasis fuel { closer with left := closer.left - n } (.part node :: outer)

/-- Adds one item behind others, the last one first. -/
def addItem (items : List Item) : Item → List Item
  | .delimiter d => if d.canClose then closeEmphasis d.left d items else .delimiter d :: items
  | item => item :: items

/-- The parts made of items, with emphasis where delimiters pair up. -/
def resolve (items : List Item) : List Inline :=
  (items.foldl addItem []).reverse.map Item.toInline

/-! ### Items -/

/-- The last character of a text that is given backwards. -/
def lastChar (seen : Bytes) : Nat :=
  match seen.dropWhile Rune.isContinuation with
  | [] => 0x0a
  | b :: _ => (Rune.first b (seen.takeWhile Rune.isContinuation).reverse).code

/-- The first character of a text; its end counts as a space. -/
def nextChar : Bytes → Nat
  | [] => 0x20
  | b :: s => (Rune.first b s).code

/-- The run of `n` delimiters between two characters. -/
def delimiterBetween (before after : Nat) (mark : UInt8) (n : Nat) : Delimiter :=
  let punctBefore := Punctuation.isPunctuation before
  let punctAfter := Punctuation.isPunctuation after
  let spaceBefore := Blank.isSpace before
  let spaceAfter := Blank.isSpace after
  let left := !spaceAfter && (!punctAfter || spaceBefore || punctBefore)
  let right := !spaceBefore && (!punctBefore || spaceAfter || punctAfter)
  if mark = 0x5f then
    ⟨mark, n, n, left && (!right || punctBefore), right && (!left || punctAfter)⟩
  else ⟨mark, n, n, left, right⟩

/-- The text up to a run of exactly `n` grave accents, and what follows the run. `run` counts the
accents in front of the text. -/
def untilGraves? (n : Nat) : (run : Nat) → Bytes → Option (Bytes × Bytes)
  | run, [] => if run = n then some ([], []) else none
  | run, b :: s =>
    if b = grave then untilGraves? n (run + 1) s
    else if run = n then some ([], b :: s)
    else (untilGraves? n 0 s).map fun (front, rest) =>
      (List.replicate run grave ++ b :: front, rest)

/-- The text of a code span: line ends are spaces, and one space at each end is taken off unless
there is nothing else. -/
def codeText (s : Bytes) : Bytes :=
  let s := s.map fun b => if b = lf then space else b
  if s.head? == some space && s.getLast? == some space && !s.all isSpace then
    (s.drop 1).take (s.length - 2)
  else s

/-- Is there a link among the parts? -/
def hasLink : (fuel : Nat) → List Inline → Bool
  | 0, _ => false
  | fuel + 1, parts => parts.any fun
    | .link .. => true
    | .emphasis _ body | .image _ body => hasLink fuel body
    | _ => false

/-- The items behind the last opening bracket, that bracket and the items before it. -/
def findBracket? : List Item → Option (List Item × (Bool × Bytes) × List Item)
  | [] => none
  | .bracket image behind :: items => some ([], (image, behind), items)
  | item :: items =>
    (findBracket? items).map fun (inner, b, outer) => (item :: inner, b, outer)

/-- The target of a link whose text is `label`, from the text behind its closing bracket. -/
def linkTarget? (refs : References) (label s : Bytes) : Option (Target × Bytes) :=
  let shortcut := (refs.find? label).map fun t => (t, s)
  match s with
  | 0x28 :: rest => (readTarget? rest).or shortcut
  | 0x5b :: rest =>
    match readLabel? rest with
    | none => shortcut
    | some (given, rest) =>
      (refs.find? (if given.all isSpace then label else given)).map fun t => (t, rest)
  | _ => shortcut

/-- Plain text as an item, the bytes given backwards. -/
def addText (items : List Item) (run : Bytes) : List Item :=
  if run.isEmpty then items else .part (.text run.reverse) :: items

/-- Plain text in front of a line end, the bytes given backwards: spaces at its end go. -/
def addLastText (items : List Item) (run : Bytes) : List Item :=
  addText items (run.dropWhile isSpace)

/-- The items behind the end of a line, of which `run` is the last text, given backwards. A backslash
or two spaces in front of the line end make it a hard one. -/
def addLineEnd (items : List Item) (run : Bytes) : List Item :=
  let line := match run with
    | 0x0d :: more => more
    | _ => run
  match line with
  | 0x5c :: more =>
    if more.head? == some backslash then .part (.lineEnd false) :: addLastText items run
    else .part (.lineEnd true) :: addText items more
  | 0x20 :: 0x20 :: _ => .part (.lineEnd true) :: addLastText items run
  | _ => .part (.lineEnd false) :: addLastText items run

/-- What follows a closing bracket: the items with the link or image it ends, and the text behind
that. -/
def closeBracket? (refs : References) (items : List Item) (s : Bytes) :
    Option (List Item × Bytes) :=
  match findBracket? items with
  | none => none
  | some (inner, (image, behind), outer) =>
    let label := behind.take (behind.length - s.length - 1)
    let body := resolve inner.reverse
    if !image && hasLink (label.length + 1) body then none
    else (linkTarget? refs label s).map fun (target, rest) =>
      (.part (if image then .image target body else .link target body) :: outer, rest)

/-- The items with the last opening bracket as plain text. -/
def dropBracket : List Item → List Item
  | [] => []
  | .bracket image behind :: items => .part (Item.bracket image behind).toInline :: items
  | item :: items => item :: dropBracket items

/-- The items of a text. `seen` is the text in front of it, `run` the plain text since the last
item, both backwards. Each step takes at least a byte, so the length of the text is fuel enough. -/
def scan (refs : References) :
    (fuel : Nat) → (seen run : Bytes) → (items : List Item) → Bytes → List Item
  | 0, _, run, items, _ => addLastText items run
  | _ + 1, _, run, items, [] => addLastText items run
  | fuel + 1, seen, run, items, b :: s =>
    let plain := scan refs fuel (b :: seen) (b :: run) items s
    let goOn (items : List Item) (rest : Bytes) :=
      scan refs fuel ((s.take (s.length - rest.length)).reverse ++ b :: seen) [] items rest
    if b = lf then goOn (addLineEnd items run) s
    else if b = backslash then
      match s with
      | c :: rest =>
        if Punctuation.isAscii c then
          scan refs fuel (c :: b :: seen) (c :: b :: run) items rest
        else plain
      | [] => plain
    else if b = grave then
      let n := (s.takeWhile (· == grave)).length + 1
      let rest := s.drop (n - 1)
      match untilGraves? n 0 rest with
      | some (text, rest) => goOn (.part (.code (codeText text)) :: addText items run) rest
      | none => goOn (.part (.text (List.replicate n grave)) :: addText items run) rest
    else if b = lbracket then goOn (.bracket false s :: addText items run) s
    else if b = 0x21 && s.head? == some lbracket then
      goOn (.bracket true (s.drop 1) :: addText items run) (s.drop 1)
    else if b = rbracket then
      match closeBracket? refs (addText items run) s with
      | some (items, rest) => goOn items rest
      | none => scan refs fuel (b :: seen) [b] (dropBracket (addText items run)) s
    else if b = 0x3c then
      match (readAddress? s).or (readTag? s) with
      | some (node, rest) => goOn (.part node :: addText items run) rest
      | none => plain
    else if b = star || b = 0x5f then
      let n := (s.takeWhile (· == b)).length + 1
      let rest := s.drop (n - 1)
      goOn (.delimiter (delimiterBetween (lastChar seen) (nextChar rest) b n) :: addText items run)
        rest
    else plain

/-- The parts of a text. -/
def inlines (refs : References) (s : Bytes) : List Inline :=
  resolve (scan refs (s.length + 1) [] [] [] s).reverse

end Spotlight.Markup
