import Spotlight.Markup.Block
import Spotlight.Markup.Entity
import Spotlight.Markup.Inline

/-!
# Documents as HTML

* `Markup.escape` — a text with the bytes escaped that mean something in HTML;
* `Markup.renderText` — plain text, with its escapes and entities resolved;
* `Markup.url` — the destination of a link as an address;
* `Markup.html` — a whole document. HTML in the document is left out, with a note in its place.
-/

namespace Spotlight.Markup

open Bytes

/-- One byte in HTML. -/
def escapeByte (b : UInt8) : Bytes :=
  if b = 0x26 then "&amp;"
  else if b = 0x3c then "&lt;"
  else if b = 0x3e then "&gt;"
  else if b = quote then "&quot;"
  else [b]

/-- The text with the bytes escaped that mean something in HTML. -/
def escape (s : Bytes) : Bytes := s.flatMap escapeByte

/-! ### Escapes and entities -/

/-- The character of a numeric entity; a code point that is none becomes U+FFFD. -/
def codeChar (code : Nat) : Bytes :=
  if code = 0 then Rune.replacementBytes else Rune.encode code

/-- The characters of the entity behind an ampersand, and what follows it. -/
def readEntity? : Bytes → Option (Bytes × Bytes)
  | 0x23 :: x :: s =>
    if x = 0x78 || x = 0x58 then
      let ds := s.takeWhile fun b => (hexValue? b).isSome
      match s.drop ds.length with
      | 0x3b :: rest =>
        if !ds.isEmpty && ds.length < 7 then some (codeChar (Ranges.hexNumber ds), rest) else none
      | _ => none
    else
      let ds := (x :: s).takeWhile isDigit
      match (x :: s).drop ds.length with
      | 0x3b :: rest =>
        if !ds.isEmpty && ds.length < 8 then some (codeChar (digitsValue ds), rest) else none
      | _ => none
  | s =>
    let name := s.takeWhile fun b => isLetter b || isDigit b
    match s.drop name.length with
    | 0x3b :: rest => (Entity.lookup? name).map fun cs => (cs, rest)
    | _ => none

/-- The text with its escapes and entities resolved, each character put through `out`. Every step
takes at least a byte, so the length of the text is fuel enough. -/
def resolveWith (out : Bytes → Bytes) : (fuel : Nat) → Bytes → Bytes
  | 0, _ => []
  | _ + 1, [] => []
  | fuel + 1, b :: s =>
    if b = backslash && s.head?.any Punctuation.isAscii then
      out (s.take 1) ++ resolveWith out fuel (s.drop 1)
    else if b = 0 then out Rune.replacementBytes ++ resolveWith out fuel s
    else if b = 0x26 then
      match readEntity? s with
      | some (cs, rest) => out cs ++ resolveWith out fuel rest
      | none => out [b] ++ resolveWith out fuel s
    else out [b] ++ resolveWith out fuel s

/-- Plain text in HTML. -/
def renderText (s : Bytes) : Bytes := resolveWith escape (s.length + 1) s

/-! ### Addresses -/

/-- May the byte stand in an address as it is? -/
def isUrlByte (b : UInt8) : Bool :=
  isLetter b || isDigit b || List.contains (Bytes.ofString "!#$%&'()*+,-./:;=?@_~") b

/-- The upper-case form of a byte in an address. -/
def percent (b : UInt8) : Bytes :=
  (0x25 : UInt8) :: (hexPadded 2 b.toNat).map fun c => if 0x61 ≤ c then c - 0x20 else c

/-- The text as an address: what may not stand there is written in hexadecimal. -/
def url (s : Bytes) : Bytes := s.flatMap fun b => if isUrlByte b then [b] else percent b

/-- The destination of a link as an address. -/
def destination (s : Bytes) : Bytes := escape (url (resolveWith id (s.length + 1) s))

/-- Does the text start with `lit`, whatever the case? -/
def startsWithFolded (s lit : Bytes) : Bool := Bytes.startsWith (s.map toLower) lit

/-- Does the address run code or read local files? -/
def isDangerous (s : Bytes) : Bool :=
  if startsWithFolded s "data:image/" then
    !(["png;", "gif;", "jpeg;", "webp;", "svg+xml;"] : List Bytes).any
      (startsWithFolded (s.drop 11))
  else (["javascript:", "vbscript:", "file:", "data:"] : List Bytes).any (startsWithFolded s)

/-- The destination of a link, unless it is dangerous. -/
def safeDestination (t : Target) : Bytes :=
  if isDangerous t.destination then [] else destination t.destination

/-- The title of a link as an attribute. -/
def titleAttribute (t : Target) : Bytes :=
  match t.title with
  | none => []
  | some title => " title=\"" ++ renderText title ++ "\""

/-! ### Parts and blocks -/

/-- What stands in place of HTML. -/
def omitted : Bytes := "<!-- raw HTML omitted -->"

mutual

/-- The text of some parts without their markup, for the description of an image. -/
def plainParts : List Inline → Bytes
  | [] => []
  | part :: parts => plainPart part ++ plainParts parts

/-- The text of a part without its markup. -/
def plainPart : Inline → Bytes
  | .text source => renderText source
  | .lineEnd hard => if hard then "<br>\n" else "\n"
  | .code text => escape text
  | .emphasis _ body => plainParts body
  | .link _ body => plainParts body
  | .image _ body => plainParts body
  | .address _ _ => []
  | .html => []

end

mutual

/-- Some parts of a text in HTML. -/
def renderParts : List Inline → Bytes
  | [] => []
  | part :: parts => renderPart part ++ renderParts parts

/-- A part of a text in HTML. -/
def renderPart : Inline → Bytes
  | .text source => renderText source
  | .lineEnd hard => if hard then "<br>\n" else "\n"
  | .code text => "<code>" ++ escape text ++ "</code>"
  | .emphasis strong body =>
    if strong then "<strong>" ++ renderParts body ++ "</strong>"
    else "<em>" ++ renderParts body ++ "</em>"
  | .link target body =>
    "<a href=\"" ++ safeDestination target ++ "\"" ++ titleAttribute target ++ ">" ++
      renderParts body ++ "</a>"
  | .image target body =>
    "<img src=\"" ++ safeDestination target ++ "\" alt=\"" ++ plainParts body ++ "\"" ++
      titleAttribute target ++ ">"
  | .address email text =>
    "<a href=\"" ++ (if email && !startsWithFolded text "mailto:" then "mailto:" else "") ++
      escape (url text) ++ "\">" ++ escape text ++ "</a>"
  | .html => omitted

end

/-- A text with its inline parts in HTML. -/
def renderInline (refs : References) (s : Bytes) : Bytes := renderParts (inlines refs s)

/-- The first word of an info text. -/
def language (info : Bytes) : Bytes := info.takeWhile fun b => !isSpace b

mutual

/-- Some blocks in HTML. -/
def renderBlocks (refs : References) : List Block → Bytes
  | [] => []
  | b :: bs => renderBlock refs b ++ renderBlocks refs bs

/-- A block in HTML. -/
def renderBlock (refs : References) : Block → Bytes
  | .heading level text =>
    let tag := "h" ++ ofNat level ++ ">"
    "<" ++ tag ++ renderInline refs text ++ "</" ++ tag ++ "\n"
  | .paragraph text => "<p>" ++ renderInline refs text ++ "</p>\n"
  | .code info text =>
    let classAttr : Bytes := match info with
      | some i => " class=\"language-" ++ renderText (language i) ++ "\""
      | none => []
    "<pre><code" ++ classAttr ++ ">" ++ escape text ++ "</code></pre>\n"
  | .rule => "<hr>\n"
  | .html closed => omitted ++ "\n" ++ (if closed then omitted ++ "\n" else "")
  | .quote body => "<blockquote>\n" ++ renderBlocks refs body ++ "</blockquote>\n"
  | .list start tight items =>
    match start with
    | none => "<ul>\n" ++ renderItems refs tight items ++ "</ul>\n"
    | some n =>
      let startAttr : Bytes := if n = 1 then [] else " start=\"" ++ ofNat n ++ "\""
      "<ol" ++ startAttr ++ ">\n" ++ renderItems refs tight items ++ "</ol>\n"

/-- The items of a list in HTML. -/
def renderItems (refs : References) (tight : Bool) : List (List Block) → Bytes
  | [] => []
  | body :: items =>
    "<li>" ++ renderItem refs tight true body ++ "</li>\n" ++ renderItems refs tight items

/-- The blocks of a list item in HTML; a paragraph of a tight list has no tags of its own. -/
def renderItem (refs : References) (tight first : Bool) : List Block → Bytes
  | [] => []
  | b :: bs =>
    (match b with
      | .paragraph text =>
        if tight then renderInline refs text ++ (if bs.isEmpty then "" else "\n")
        else (if first then "\n" else "") ++ renderBlock refs b
      | _ => (if first then "\n" else "") ++ renderBlock refs b) ++
    renderItem refs tight false bs

end

/-- A whole document in HTML. -/
def html (s : Bytes) : Bytes :=
  let (blocks, refs) := document s
  renderBlocks refs blocks

end Spotlight.Markup
