import Spotlight.Markup.Line

/-!
# The blocks of a document

A document is read line by line. The blocks that are still open stand on a stack: quotes, lists and
their items around a leaf, such as a paragraph, that takes up lines of text. A line first goes on
with the open blocks, as far as it has their markers, and then may open new ones.

* `Markup.Reader` — the open blocks;
* `Markup.Reader.addLine` — the open blocks after one more line;
* `Markup.document` — the blocks and the link targets of a document.
-/

namespace Spotlight.Markup

open Bytes

/-- A block that holds others. -/
inductive Container
  /-- The document. -/
  | document
  /-- A block quote. -/
  | quote
  /-- A list. -/
  | list (marker : Marker)
  /-- A list item, whose lines are indented by a number of columns. -/
  | item (indent : Nat)
deriving Repr, Inhabited

/-- An open container with what was read of it, the last part first. -/
structure Frame where
  /-- The container. -/
  container : Container
  /-- Does a blank line stand in front of it? -/
  afterBlank : Bool
  /-- Its blocks, each with whether a blank line stands in front of it. -/
  blocks : List (Bool × Block) := []
  /-- The items of a list, each with whether it makes the list a loose one. -/
  items : List (Bool × List Block) := []

/-- The open block that takes up lines, with those lines, the last one first. -/
inductive Leaf
  /-- None. -/
  | none
  /-- A paragraph. -/
  | paragraph (lines : List Bytes)
  /-- A block of code between fences, which are indented. -/
  | fenced (fence : Fence) (indent : Nat) (lines : List Bytes)
  /-- A block of code that is indented. -/
  | indented (lines : List Bytes)
  /-- A block of HTML. -/
  | html (stop : HtmlEnd)

/-- The open blocks of a document. -/
structure Reader where
  /-- The open containers, the innermost first. -/
  frames : List Frame := [{ container := .document, afterBlank := false }]
  /-- The open leaf in the innermost container. -/
  leaf : Leaf := .none
  /-- Does a blank line stand in front of the leaf? -/
  leafAfterBlank : Bool := false
  /-- Was the last line blank? -/
  lastBlank : Bool := false
  /-- The link targets, the last one first. -/
  refs : References := []

namespace Reader

/-- Adds a block to the innermost container. -/
def addBlock (r : Reader) (afterBlank : Bool) (b : Block) : Reader :=
  match r.frames with
  | [] => r
  | f :: fs => { r with frames := { f with blocks := (afterBlank, b) :: f.blocks } :: fs }

/-- Lines as the text of a block, each with its line end; the last line is given first. -/
def codeLines (lines : List Bytes) : Bytes := lines.reverse.flatMap fun l => l ++ [lf]

/-- Takes the definitions of link targets off the start of a paragraph. -/
def takeDefinitions : (fuel : Nat) → References → Bytes → References × Bytes
  | 0, refs, s => (refs, s)
  | fuel + 1, refs, s =>
    match readDefinition? s with
    | some (ref, rest) => takeDefinitions fuel (ref :: refs) rest
    | none => (refs, s)

/-- The text of a paragraph. -/
def paragraphText (lines : List Bytes) : Bytes :=
  ((joinWith [lf] lines.reverse).reverse.dropWhile isSpace).reverse

/-- Closes the leaf. -/
def closeLeaf (r : Reader) : Reader :=
  let closed := { r with leaf := .none }
  match r.leaf with
  | .none => closed
  | .paragraph lines =>
    let (refs, text) := takeDefinitions lines.length r.refs (paragraphText lines)
    let closed := { closed with refs := refs }
    if text.isEmpty then closed else closed.addBlock r.leafAfterBlank (.paragraph text)
  | .fenced fence _ lines =>
    let info := if fence.info.isEmpty then Option.none else some fence.info
    closed.addBlock r.leafAfterBlank (.code info (codeLines lines))
  | .indented lines =>
    closed.addBlock r.leafAfterBlank (.code Option.none (codeLines (lines.dropWhile (·.all isSpace))))
  | .html _ => closed.addBlock r.leafAfterBlank (.html false)

/-- Does a block other than the first have a blank line in front of it? The last is given first. -/
def hasGap (blocks : List (Bool × Block)) : Bool := blocks.dropLast.any (·.1)

/-- Closes the innermost container and its leaf. The document stays open. -/
def closeFrame (r : Reader) : Reader :=
  let r := r.closeLeaf
  match r.frames with
  | f :: g :: fs =>
    let body := f.blocks.reverse.map Prod.snd
    match f.container with
    | .document => r
    | .quote => addBlock { r with frames := g :: fs } f.afterBlank (.quote body)
    | .item _ =>
      let loose := hasGap f.blocks || (f.afterBlank && !g.items.isEmpty)
      { r with frames := { g with items := (loose, body) :: g.items } :: fs }
    | .list marker =>
      let tight := !f.items.any (·.1)
      addBlock { r with frames := g :: fs } f.afterBlank
        (.list marker.number tight (f.items.reverse.map Prod.snd))
  | _ => r

/-- Closes the innermost `n` containers. -/
def closeFrames : (n : Nat) → Reader → Reader
  | 0, r => r
  | n + 1, r => closeFrames n r.closeFrame

/-- Closes the innermost container if it is a list. -/
def closeList (r : Reader) : Reader :=
  match r.frames with
  | { container := .list _, .. } :: _ => r.closeFrame
  | _ => r

/-- Closes the containers a line did not go on with, and the leaf, to make room for a block. -/
def makeRoom (r : Reader) (unmatched : Nat) : Reader := (closeFrames unmatched r).closeLeaf

/-- Opens a container. -/
def openFrame (r : Reader) (c : Container) : Reader :=
  { r with frames := { container := c, afterBlank := r.lastBlank } :: r.frames }

/-- Opens a leaf. -/
def openLeaf (r : Reader) (leaf : Leaf) : Reader :=
  { r with leaf := leaf, leafAfterBlank := r.lastBlank }

/-- Is the leaf a paragraph? -/
def inParagraph (r : Reader) : Bool :=
  match r.leaf with
  | .paragraph _ => true
  | _ => false

/-- Has nothing been read of the innermost container? -/
def isFresh (r : Reader) : Bool :=
  match r.leaf, r.frames with
  | .none, f :: _ => f.blocks.isEmpty
  | _, _ => false

/-- The rest of a line behind the marker of a quote. -/
def quoteRest? (l : Line) : Option Line :=
  if 4 ≤ l.indent then none
  else
    let l := l.dropColumns l.indent
    match l.text with
    | 0x3e :: _ => some ((l.drop 1).dropColumns 1)
    | _ => none

/-- Goes on with open containers, the outermost first: how many of them the line does not have the
marker of, and the rest of the line. `fresh` says whether the innermost one is still empty. -/
def matchFrames (fresh : Bool) : List Frame → Line → Nat × Line
  | [], l => (0, l)
  | f :: fs, l =>
    let missed := (fs.length + 1, l)
    match f.container with
    | .document | .list _ => matchFrames fresh fs l
    | .quote =>
      match quoteRest? l with
      | some rest => matchFrames fresh fs rest
      | none => missed
    | .item indent =>
      if l.isBlank then
        if fresh && fs.isEmpty then missed else matchFrames fresh fs l
      else if indent ≤ l.indent then matchFrames fresh fs (l.dropColumns indent)
      else missed

/-- Adds a line to a paragraph, or starts one with it. -/
def addText (r : Reader) (unmatched : Nat) (l : Line) : Reader :=
  let text := l.text.dropWhile isSpace
  match r.leaf with
  | .paragraph lines => { r with leaf := .paragraph (text :: lines) }
  | _ => ((r.makeRoom unmatched).closeList).openLeaf (.paragraph [text])

/-- Opens a list item, and a list around it unless it belongs to the innermost one. -/
def openItem (r : Reader) (unmatched : Nat) (marker : Marker) (indent : Nat) : Reader :=
  let r := r.makeRoom unmatched
  match r.frames with
  | { container := .list m, .. } :: _ =>
    if m.sameList marker then r.openFrame (.item indent)
    else (r.closeFrame.openFrame (.list marker)).openFrame (.item indent)
  | _ => (r.openFrame (.list marker)).openFrame (.item indent)

/-- Adds the rest of a line behind the markers of all but `unmatched` of the open containers. Every
step takes a marker off the line, so its length is fuel enough. -/
def addRest : (fuel : Nat) → (r : Reader) → (unmatched : Nat) → Line → Reader
  | 0, r, _, _ => r
  | fuel + 1, r, unmatched, l =>
    if l.isBlank then
      let r := closeFrames unmatched r
      if r.inParagraph then r.closeLeaf else r
    else if 4 ≤ l.indent then
      if r.inParagraph then r.addText unmatched l
      else ((r.makeRoom unmatched).closeList).openLeaf (.indented [(l.dropColumns 4).text])
    else
      let indent := l.indent
      let l := l.dropColumns indent
      let here := unmatched == 0 && r.inParagraph
      let room := (r.makeRoom unmatched).closeList
      match (if here then underline? l.text else none), r.leaf with
      | some level, .paragraph lines =>
        addBlock { r with leaf := .none } r.leafAfterBlank (.heading level (paragraphText lines))
      | _, _ =>
        if isRule l.text then room.addBlock room.lastBlank .rule
        else
          match readMarker? l.text with
          | some (marker, size) =>
            if here && ((l.drop size).isBlank || marker.number.any (· != 1)) then
              r.addText unmatched l
            else
              let width := itemWidth l size
              let rest := (l.drop size).dropColumns (width - size)
              addRest fuel (r.openItem unmatched marker (indent + width)) 0 rest
          | none =>
            match readHeading? l.text with
            | some (level, text) => room.addBlock room.lastBlank (.heading level text)
            | none =>
              match readFence? l.text with
              | some fence => room.openLeaf (.fenced fence indent [])
              | none =>
                match quoteRest? l with
                | some rest => addRest fuel (room.openFrame .quote) 0 rest
                | none =>
                  match readHtml? r.inParagraph l.text with
                  | some stop =>
                    if stop.closedBy l.text then room.addBlock room.lastBlank (.html false)
                    else room.openLeaf (.html stop)
                  | none => r.addText unmatched l

/-- Goes on with the open leaf, if the line belongs to it whatever it holds. -/
def goOn? (r : Reader) (l : Line) : Option Reader :=
  match r.leaf with
  | .fenced fence indent lines =>
    let text := (l.dropColumns l.indent).text
    if l.indent ≤ 3 && fence.closes text then some r.closeLeaf
    else some { r with leaf := .fenced fence indent ((l.dropColumns indent).text :: lines) }
  | .indented lines =>
    if 4 ≤ l.indent || l.isBlank then
      some { r with leaf := .indented ((l.dropColumns 4).text :: lines) }
    else none
  | .html stop =>
    if stop.closedBy l.text then
      some (addBlock { r with leaf := .none } r.leafAfterBlank (.html true))
    else
      match stop with
      | .blank => if l.isBlank then some r.closeLeaf else some r
      | .closer _ => some r
  | _ => none

/-- The open blocks after one more line. -/
def addLine (r : Reader) (text : Bytes) : Reader :=
  let (unmatched, l) := matchFrames r.isFresh r.frames.reverse ⟨0, text⟩
  let r' := match (if unmatched = 0 then r.goOn? l else none) with
    | some r' => r'
    | none =>
      let r := if r.inParagraph || unmatched != 0 then r else r.closeLeaf
      addRest (l.text.length + 2) r unmatched l
  { r' with lastBlank := l.isBlank }

end Reader

/-- The lines of a document, without their line ends. -/
def documentLines (s : Bytes) : List Bytes :=
  let ls := splitOn lf s
  if ls.getLast? == some [] then ls.dropLast else ls

/-- The blocks of a document, and the link targets it defines. -/
def document (s : Bytes) : List Block × References :=
  let r := (documentLines s).foldl Reader.addLine {}
  let r := Reader.closeFrames r.frames.length r
  let blocks := match r.frames with
    | f :: _ => f.blocks.reverse.map Prod.snd
    | [] => []
  (blocks, r.refs.reverse)

end Spotlight.Markup
