import Spotlight.Group.Header
import Spotlight.Options

/-!
# The disabled region

The disabled region of a test file starts with the marker, which opens a comment, and ends with the
close of that comment and the head of the anchor group. Of all closes the first one after the marker
counts that has the anchor group behind it.

* `Region` — the span, cut into its opening, its body and its close;
* `Region.readClose?` — the close at the head of a text;
* `Region.locate` — the only disabled region of a file.
-/

namespace Spotlight

open Bytes

/-- The disabled span of a test file. -/
structure Region where
  /-- The marker with the white space after it. -/
  opening : Bytes
  /-- The disabled groups. -/
  body : Bytes
  /-- The white space before the close of the comment, the close and the head of the anchor
  group. -/
  closing : Bytes
  /-- The offset of the marker in the file. -/
  start : Nat
deriving DecidableEq, Repr

namespace Region

/-- The text of the region. -/
def text (r : Region) : Bytes := r.opening ++ r.body ++ r.closing

/-- The offset of the body in the file. -/
def bodyOffset (r : Region) : Nat := r.start + r.opening.length

/-- The offset just past the region in the file. -/
def stop (r : Region) : Nat := r.start + r.text.length

/-- What follows a close at the head of a text: the end of the comment and the head of the anchor
group. The keyword starts with a word byte, or there is no word boundary in front of it. -/
def readClose? (o : Options) (s : Bytes) : Option Bytes := do
  let s ← Bytes.strip? "*/" s
  guard (o.keyword.head?.any isWord)
  let s ← Literal.strip? o.keyword (Group.skipBlanks s)
  let s ← Bytes.strip? [lparen] s
  match Group.skipBlanks s with
  | q :: s => if Scan.isDelimiter q then Literal.strip? o.anchor s else none
  | [] => none

/-- The first close in a text: what stands in front of it, and what follows it. -/
def findClose? (o : Options) : Bytes → Option (Bytes × Bytes)
  | [] => none
  | b :: s =>
    match readClose? o (b :: s) with
    | some rest => some ([], rest)
    | none => (findClose? o s).map fun (front, rest) => (b :: front, rest)

/-- The first region in `src`, which starts at offset `i` of the file, and what follows it. -/
def find? (o : Options) (i : Nat) (src : Bytes) : Option (Region × Bytes) := do
  let (s, afterMarker) ← Literal.find? o.marker src
  let inner := Group.skipBlanks afterMarker
  let (front, rest) ← findClose? o inner
  let gap := (front.reverse.takeWhile isBlank).length
  let body := front.take (front.length - gap)
  let close := inner.drop body.length
  return ({
    opening := (src.drop s).take (src.length - s - inner.length)
    body := body
    closing := close.take (close.length - rest.length)
    start := i + s }, rest)

/-- The text with a backslash in front of every byte that has a meaning in regular expressions. -/
def escaped (s : Bytes) : Bytes :=
  s.flatMap fun b =>
    if List.contains (Bytes.ofString "\\.+*?()|[]\x7b\x7d^$") b then [backslash, b] else [b]

/-- The search for a region as a regular expression, the form in which messages show it. -/
def pattern (o : Options) : Bytes :=
  "(?s)(" ++ escaped o.marker ++ "\\s*)(.*?)(\\s*\\*/\\s*\\b" ++ escaped o.keyword ++
    "\\(\\s*['\"`]" ++ escaped o.anchor ++ ")"

/-- A text from its first malformed byte on. -/
def fromMalformed (s : Bytes) : Bytes :=
  ((Rune.ofBytes s).dropWhile fun r => !r.isMalformed).flatMap Rune.raw

/-- The only disabled region of a file. -/
def locate (src : Bytes) (o : Options) : Except Fault Region :=
  if !(o.marker.isUtf8 && o.keyword.isUtf8 && o.anchor.isUtf8) then
    .error (.malformedSearch (fromMalformed (pattern o)))
  else
    match find? o 0 src with
    | none => .error (.regionNotFound o.marker o.keyword o.anchor)
    | some (r, rest) =>
      match find? o r.stop rest with
      | none => .ok r
      | some _ => .error (.ambiguousRegion o.marker)

end Region

/-- A file cut around its disabled region. -/
structure Document where
  /-- The text in front of the region. -/
  front : Bytes
  /-- The region. -/
  region : Region
  /-- The text behind the region. -/
  back : Bytes
deriving DecidableEq, Repr

namespace Document

/-- Cuts a file around one of its regions. -/
def split (src : Bytes) (r : Region) : Document := ⟨src.take r.start, r, src.drop r.stop⟩

/-- The file with `region` in place of the region. -/
def join (d : Document) (region : Bytes) : Bytes := d.front ++ region ++ d.back

/-- The text of the file. -/
def text (d : Document) : Bytes := d.join d.region.text

end Document

end Spotlight
