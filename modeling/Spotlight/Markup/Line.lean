import Spotlight.Markup.Link

/-!
# Lines that start a block

Tests on one line of a document, after the markers of the blocks around it are taken off. A tab goes
to the next column that is a multiple of four.

* `Markup.Line` — what is left of a line, and the column it starts in;
* `Markup.Line.indent`, `Markup.Line.dropColumns` — white space counted in columns;
* `Markup.Marker`, `Markup.readMarker?` — the marker of a list item;
* `Markup.readHeading?`, `Markup.readFence?`, `Markup.isRule` — the first lines of other blocks.
-/

namespace Spotlight.Markup

open Bytes

/-- The rest of a line. -/
structure Line where
  /-- The column it starts in. -/
  column : Nat
  /-- Its text, without the line end. -/
  text : Bytes
deriving Repr, Inhabited

/-- The number of columns a tab takes up in a column. -/
def tabWidth (column : Nat) : Nat := 4 - column % 4

/-- The number of columns of white space at the head of a text that starts in `column`. -/
def indentFrom : (column : Nat) → Bytes → Nat
  | column, 0x20 :: s => indentFrom (column + 1) s + 1
  | column, 0x09 :: s => indentFrom (column + tabWidth column) s + tabWidth column
  | _, _ => 0

/-- The text without `n` columns of white space; what is left of a tab becomes spaces. -/
def dropColumnsFrom : (column n : Nat) → Bytes → Bytes
  | column, n + 1, 0x20 :: s => dropColumnsFrom (column + 1) n s
  | column, n + 1, 0x09 :: s =>
    let w := tabWidth column
    if w ≤ n + 1 then dropColumnsFrom (column + w) (n + 1 - w) s
    else List.replicate (w - (n + 1)) space ++ s
  | _, _, s => s

namespace Line

/-- The number of columns of white space at the head of a line. -/
def indent (l : Line) : Nat := indentFrom l.column l.text

/-- The line without `n` columns of white space, or all of it if there is less. -/
def dropColumns (l : Line) (n : Nat) : Line :=
  ⟨l.column + min n l.indent, dropColumnsFrom l.column n l.text⟩

/-- The line without its first `n` bytes, which are no white space. -/
def drop (l : Line) (n : Nat) : Line := ⟨l.column + n, l.text.drop n⟩

/-- Is there nothing but white space? -/
def isBlank (l : Line) : Bool := l.text.all isSpace

end Line

/-- The text without white space at both ends. -/
def trimmed (s : Bytes) : Bytes :=
  ((s.dropWhile isSpace).reverse.dropWhile isSpace).reverse

/-- Is the text a thematic break: three or more of the same mark, with spaces between them? -/
def isRule (s : Bytes) : Bool :=
  match s.filter fun b => !isSpace b with
  | [] => false
  | m :: ms =>
    (m = star || m = 0x2d || m = 0x5f) && 2 ≤ ms.length && ms.all (· == m)

/-- The level of the heading that a line under a paragraph makes of it. -/
def underline? (s : Bytes) : Option Nat :=
  match (s.reverse.dropWhile isSpace).reverse with
  | [] => none
  | m :: ms =>
    if !ms.all (· == m) then none
    else if m = 0x3d then some 1
    else if m = 0x2d then some 2
    else none

/-- The text of a heading without the closing run of number signs, which stands after a space. -/
def closedHeading (s : Bytes) : Bytes :=
  let back := (trimmed s).reverse
  match back.dropWhile (· == 0x23) with
  | [] => []
  | b :: rest => if isSpace b then (trimmed (b :: rest).reverse) else back.reverse

/-- The level and text of a heading that is marked by number signs. -/
def readHeading? (s : Bytes) : Option (Nat × Bytes) :=
  let level := (s.takeWhile (· == 0x23)).length
  let rest := s.drop level
  if level = 0 || 6 < level then none
  else if rest.isEmpty || rest.head?.any isSpace then some (level, closedHeading rest)
  else none

/-- A fence of a block of code. -/
structure Fence where
  /-- The byte it is made of. -/
  mark : UInt8
  /-- How many there are. -/
  size : Nat
  /-- The text behind it. -/
  info : Bytes
deriving Repr, Inhabited

/-- The fence that opens a block of code. -/
def readFence? : Bytes → Option Fence
  | [] => none
  | m :: s =>
    let size := (s.takeWhile (· == m)).length + 1
    let info := trimmed (s.drop (size - 1))
    if (m = grave || m = 0x7e) && 3 ≤ size && !(m = grave && List.contains info grave) then
      some ⟨m, size, info⟩
    else none

/-- Does the text close the block of code that `f` opened? -/
def Fence.closes (f : Fence) (s : Bytes) : Bool :=
  f.size ≤ (s.takeWhile (· == f.mark)).length && (s.dropWhile (· == f.mark)).all isSpace

/-! ### List items -/

/-- The kind of a list: its bullet, or the byte behind its numbers. -/
structure Marker where
  /-- The bullet or the byte behind a number. -/
  mark : UInt8
  /-- The number, if the list is ordered. -/
  number : Option Nat
deriving DecidableEq, Repr

/-- Do two items with these markers belong to the same list? -/
def Marker.sameList (a b : Marker) : Bool := a.mark == b.mark && a.number.isSome == b.number.isSome

/-- The marker of a list item and its length. A space or the end of the line follows it. -/
def readMarker? (s : Bytes) : Option (Marker × Nat) :=
  let ends (rest : Bytes) := rest.isEmpty || rest.head?.any isSpace
  match s with
  | [] => none
  | b :: rest =>
    if b = 0x2d || b = 0x2b || b = star then
      if ends rest then some (⟨b, none⟩, 1) else none
    else
      let ds := s.takeWhile isDigit
      match s.drop ds.length with
      | [] => none
      | m :: rest =>
        if !ds.isEmpty && ds.length ≤ 9 && (m = 0x2e || m = rparen) && ends rest then
          some (⟨m, some (digitsValue ds)⟩, ds.length + 1)
        else none

/-- The number of columns of a list item up to its text, for a line from its marker on: one to four
columns of white space behind the marker belong to it. -/
def itemWidth (l : Line) (size : Nat) : Nat :=
  let behind := l.drop size
  if behind.isBlank || 5 ≤ behind.indent then size + 1 else size + behind.indent

/-! ### HTML -/

/-- How a block of HTML ends: in the line with one of the given texts, or before a blank line. -/
inductive HtmlEnd
  /-- In the line with one of these texts, compared in lower case. -/
  | closer (texts : List Bytes)
  /-- Before a blank line. -/
  | blank
deriving Repr, Inhabited

/-- The elements whose tags start a block. -/
def blockElements : List Bytes :=
  List.map ofString ["address", "article", "aside", "base", "basefont", "blockquote", "body", "caption", "center",
   "col", "colgroup", "dd", "details", "dialog", "dir", "div", "dl", "dt", "fieldset", "figcaption",
   "figure", "footer", "form", "frame", "frameset", "h1", "h2", "h3", "h4", "h5", "h6", "head",
   "header", "hr", "html", "iframe", "legend", "li", "link", "main", "menu", "menuitem", "nav",
   "noframes", "ol", "optgroup", "option", "p", "param", "search", "section", "summary", "table",
   "tbody", "td", "tfoot", "th", "thead", "title", "tr", "track", "ul"]

/-- The elements whose text is not marked up. -/
def rawElements : List Bytes := ["script", "pre", "style", "textarea"]

/-- How the block of HTML ends that starts with a text. A lone tag only starts one where no
paragraph goes on. -/
def readHtml? (inParagraph : Bool) (s : Bytes) : Option HtmlEnd :=
  match s with
  | 0x3c :: rest =>
    let name := (rest.takeWhile fun b => isLetter b || isDigit b).map toLower
    let behind := rest.drop name.length
    let inner := if rest.head? == some slash then rest.drop 1 else rest
    let tag := (inner.takeWhile fun b => isLetter b || isDigit b).map toLower
    let after := inner.drop tag.length
    if rawElements.contains name && (behind.isEmpty || behind.head?.any fun b =>
        isSpace b || b == 0x3e) then
      some (.closer (rawElements.map fun e => "</" ++ e ++ ">"))
    else if Bytes.startsWith rest "!--" then some (.closer ["-->"])
    else if Bytes.startsWith rest "?" then some (.closer ["?>"])
    else if Bytes.startsWith rest "![CDATA[" then some (.closer ["]]>"])
    else if rest.head? == some 0x21 && (rest.drop 1).head?.any isLetter then some (.closer [">"])
    else if blockElements.contains tag && (after.isEmpty || Bytes.startsWith after "/>" ||
        after.head?.any fun b => isSpace b || b == 0x3e) then some .blank
    else if inParagraph || rawElements.contains tag then none
    else
      match (if rest.head? == some slash then skipCloseTag? inner else skipOpenTag? rest) with
      | some more => if more.all isSpace then some .blank else none
      | none => none
  | _ => none

/-- Does the line end a block of HTML, as its last line? -/
def HtmlEnd.closedBy (e : HtmlEnd) (s : Bytes) : Bool :=
  match e with
  | .closer texts => texts.any fun t => Bytes.contains (s.map toLower) t
  | .blank => false

end Spotlight.Markup
