import Spotlight.Markup.Tree
import Spotlight.Text.Punctuation

/-!
# Links, addresses and tags

Readers for the parts of a line that start with a bracket. Each takes the text at the part's start
and gives back what it read together with the text behind it.

* `Markup.readTarget?` — the destination and title in the parentheses of a link;
* `Markup.readDefinition?` — the definition of a link target by a label;
* `Markup.readAddress?` — an address between angle brackets;
* `Markup.readTag?` — a piece of HTML.
-/

namespace Spotlight.Markup

open Bytes

/-- Past white space and line ends. -/
def skipSpaces (s : Bytes) : Bytes := s.dropWhile isSpace

/-- Splits a text in front of the first byte `stop` holds for that is not escaped. -/
def breakAt (stop : UInt8 → Bool) : Bytes → Bytes × Bytes
  | [] => ([], [])
  | [b] => if stop b then ([], [b]) else ([b], [])
  | b :: c :: s =>
    if b = backslash && Punctuation.isAscii c then
      let (front, rest) := breakAt stop s
      (b :: c :: front, rest)
    else if stop b then ([], b :: c :: s)
    else
      let (front, rest) := breakAt stop (c :: s)
      (b :: front, rest)

/-- Splits off a destination without angle brackets: it goes on to the first space, or to the
parenthesis that closes more than was opened. -/
def bareDestination : (opened : Nat) → Bytes → Bytes × Bytes
  | _, [] => ([], [])
  | opened, [b] =>
    if isSpace b || (b = rparen && opened = 0) then ([], [b]) else ([b], [])
  | opened, b :: c :: s =>
    if b = backslash && Punctuation.isAscii c then
      let (front, rest) := bareDestination opened s
      (b :: c :: front, rest)
    else if isSpace b || (b = rparen && opened = 0) then ([], b :: c :: s)
    else
      let opened := if b = lparen then opened + 1 else if b = rparen then opened - 1 else opened
      let (front, rest) := bareDestination opened (c :: s)
      (b :: front, rest)

/-- The destination of a link. -/
def readDestination? : Bytes → Option (Bytes × Bytes)
  | 0x3c :: s =>
    match breakAt (fun b => b == 0x3e || b == lf) s with
    | (dest, 0x3e :: rest) => some (dest, rest)
    | _ => none
  | s =>
    match bareDestination 0 s with
    | ([], _) => none
    | found => some found

/-- The title of a link. -/
def readTitle? : Bytes → Option (Bytes × Bytes)
  | [] => none
  | q :: s =>
    if q = quote || q = apostrophe then
      match breakAt (· == q) s with
      | (title, _ :: rest) => some (title, rest)
      | _ => none
    else if q = lparen then
      match breakAt (fun b => b == lparen || b == rparen) s with
      | (title, 0x29 :: rest) => some (title, rest)
      | _ => none
    else none

/-- What is in the parentheses of a link, after the opening one. -/
def readTarget? (s : Bytes) : Option (Target × Bytes) :=
  match skipSpaces s with
  | 0x29 :: rest => some (⟨[], none⟩, rest)
  | s =>
    match readDestination? s with
    | none => none
    | some (dest, s) =>
      match skipSpaces s with
      | 0x29 :: rest => some (⟨dest, none⟩, rest)
      | s =>
        match readTitle? s with
        | none => none
        | some (title, s) =>
          match skipSpaces s with
          | 0x29 :: rest => some (⟨dest, some title⟩, rest)
          | _ => none

/-- The label after its opening bracket. -/
def readLabel? (s : Bytes) : Option (Bytes × Bytes) :=
  match breakAt (fun b => b == lbracket || b == rbracket) s with
  | (label, 0x5d :: rest) => if label.length ≤ 999 then some (label, rest) else none
  | _ => none

/-- Past spaces to the end of the line, if nothing else stands in front of it. -/
def endOfLine? (s : Bytes) : Option Bytes :=
  match s.dropWhile fun b => isSpace b && b != lf with
  | [] => some []
  | b :: rest => if b = lf then some rest else none

/-- The definition of a link target at the start of a paragraph. -/
def readDefinition? (s : Bytes) : Option ((Bytes × Target) × Bytes) := do
  let s ← strip? [lbracket] s
  let (label, s) ← readLabel? s
  guard (!(normalLabel label).isEmpty)
  let s ← strip? [0x3a] s
  let (dest, s) ← readDestination? (skipSpaces s)
  let spaced := s.head?.any isSpace
  match (if spaced then readTitle? (skipSpaces s) else none).bind fun (title, s) =>
      (endOfLine? s).map fun rest => (title, rest) with
  | some (title, rest) => return ((normalLabel label, ⟨dest, some title⟩), rest)
  | none =>
    let rest ← endOfLine? s
    return ((normalLabel label, ⟨dest, none⟩), rest)

/-! ### Addresses -/

/-- May `b` stand in front of the at sign? -/
def isMailByte (b : UInt8) : Bool :=
  isLetter b || isDigit b || List.contains (Bytes.ofString ".!#$%&'*+/=?^_`\x7b|\x7d~-") b

/-- Is the text a label of a host name? -/
def isHostLabel (s : Bytes) : Bool :=
  !s.isEmpty && s.length ≤ 63 && s.all (fun b => isLetter b || isDigit b || b == 0x2d) &&
  s.head? != some 0x2d && s.getLast? != some 0x2d

/-- Is the text a mail address? -/
def isMail (s : Bytes) : Bool :=
  match s.dropWhile isMailByte with
  | 0x40 :: host => !(s.takeWhile isMailByte).isEmpty && (host.splitOn 0x2e).all isHostLabel
  | _ => false

/-- Is the text an absolute address: a scheme of two or more letters, a colon and no spaces? -/
def isAbsolute (s : Bytes) : Bool :=
  let isSchemeByte (b : UInt8) := isLetter b || isDigit b || b == 0x2b || b == 0x2e || b == 0x2d
  let scheme := s.takeWhile isSchemeByte
  scheme.head?.any isLetter && 2 ≤ scheme.length && scheme.length ≤ 33 &&
  match s.dropWhile isSchemeByte with
  | 0x3a :: rest => rest.all fun b => 0x20 < b && b != 0x3c
  | _ => false

/-- An address after its opening angle bracket. -/
def readAddress? (s : Bytes) : Option (Inline × Bytes) :=
  match s.dropWhile (· != 0x3e) with
  | [] => none
  | _ :: rest =>
    let text := s.takeWhile (· != 0x3e)
    if isMail text then some (.address true text, rest)
    else if isAbsolute text then some (.address false text, rest)
    else none

/-! ### Tags -/

/-- The name of a tag. -/
def tagName? : Bytes → Option (Bytes × Bytes)
  | [] => none
  | b :: s =>
    let more (c : UInt8) := isLetter c || isDigit c || c == 0x2d
    if isLetter b then some (b :: s.takeWhile more, s.dropWhile more) else none

/-- Is `b` white space in a tag? -/
def isTagSpace (b : UInt8) : Bool := b == space || b == tab || b == lf || b == cr

/-- Past the value of an attribute. -/
def skipValue? : Bytes → Option Bytes
  | [] => none
  | q :: s =>
    if q = quote || q = apostrophe then
      match s.dropWhile (· != q) with
      | _ :: rest => some rest
      | [] => none
    else
      let plain (b : UInt8) := 0x20 < b && !List.contains (Bytes.ofString "\"'=<>`") b
      if plain q then some (s.dropWhile plain) else none

/-- Past the equals sign and the value of an attribute, where they are given. -/
def skipAssignment? (s : Bytes) : Option Bytes :=
  match s.dropWhile isTagSpace with
  | 0x3d :: rest => skipValue? (rest.dropWhile isTagSpace)
  | _ => some s

/-- Past the attributes of a tag and its end. -/
def skipAttributes? : (fuel : Nat) → Bytes → Option Bytes
  | 0, _ => none
  | fuel + 1, s =>
    match s.dropWhile isTagSpace with
    | 0x3e :: rest => some rest
    | 0x2f :: 0x3e :: rest => some rest
    | b :: rest =>
      let starts (c : UInt8) := isLetter c || c == 0x5f || c == 0x3a
      let more (c : UInt8) := starts c || isDigit c || c == 0x2e || c == 0x2d
      if s.head?.any isTagSpace && starts b then
        (skipAssignment? (rest.dropWhile more)).bind (skipAttributes? fuel)
      else none
    | [] => none

/-- Past a tag that opens an element, after its angle bracket. -/
def skipOpenTag? (s : Bytes) : Option Bytes :=
  (tagName? s).bind fun (_, s) => skipAttributes? (s.length + 1) s

/-- Past a tag that closes an element, after its angle bracket and slash. -/
def skipCloseTag? (s : Bytes) : Option Bytes :=
  (tagName? s).bind fun (_, s) => strip? [0x3e] (s.dropWhile isTagSpace)

/-- Past the first occurrence of `stop`. -/
def skipPast? (stop s : Bytes) : Option Bytes :=
  (Bytes.find? stop s).map fun i => s.drop (i + stop.length)

/-- Past a piece of HTML, after its angle bracket: a tag, a comment, an instruction, a declaration
or a section of character data. -/
def skipHtml? (s : Bytes) : Option Bytes :=
  match s with
  | 0x2f :: rest => skipCloseTag? rest
  | 0x3f :: _ => skipPast? "?>" s
  | 0x21 :: rest =>
    if s.startsWith "!-->" then some (s.drop 4)
    else if s.startsWith "!--->" then some (s.drop 5)
    else if s.startsWith "!--" then skipPast? "-->" (s.drop 3)
    else if s.startsWith "![CDATA[" then skipPast? "]]>" s
    else if rest.head?.any fun b => 0x41 ≤ b && b ≤ 0x5a then skipPast? ">" s
    else none
  | _ => skipOpenTag? s

/-- A piece of HTML after its angle bracket. -/
def readTag? (s : Bytes) : Option (Inline × Bytes) := (skipHtml? s).map fun rest => (.html, rest)

end Spotlight.Markup
