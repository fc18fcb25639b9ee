import Spotlight.Yaml.Scalar

/-!
# Tokens of a YAML text

Indentation and the keys of mappings show in the tokens: blocks have a start and an end, and a key has
a sign in front of it. Whether something is a key is known only at the colon behind it, so the sign is
put in later.

* `Yaml.Token` — the tokens;
* `Yaml.Lexer` — a text that is being cut into tokens;
* `Lexer.step` — the next token;
* `Yaml.tokens` — all tokens of a text, up to the first fault.
-/

namespace Spotlight.Yaml

/-- A token. -/
inductive Token
  /-- The end of the text. -/
  | finish
  /-- A directive with the version of the format. -/
  | version (isKnown : Bool)
  /-- A directive that declares a handle for tags. -/
  | handle (name : List Char)
  /-- The mark in front of a document. -/
  | documentStart
  /-- The mark behind a document. -/
  | documentEnd
  /-- The start of a list of indented entries. -/
  | blockList
  /-- The start of an indented mapping. -/
  | blockMap
  /-- The end of an indented list or mapping. -/
  | blockEnd
  /-- An opening square bracket. -/
  | flowList
  /-- A closing square bracket. -/
  | flowListEnd
  /-- An opening brace. -/
  | flowMap
  /-- A closing brace. -/
  | flowMapEnd
  /-- The dash in front of an entry. -/
  | entry
  /-- The comma between entries. -/
  | comma
  /-- The sign for a key. -/
  | key
  /-- The colon in front of a value. -/
  | value
  /-- A mention of an anchor. -/
  | alias (name : List Char)
  /-- An anchor on the next node. -/
  | anchor (name : List Char)
  /-- A tag on the next node: its handle and the rest. -/
  | tag (handle suffix : List Char)
  /-- A scalar, with or without quotes. -/
  | scalar (quoted : Bool) (text : List Char)
deriving DecidableEq

/-- A place where a key may have started. -/
structure MaybeKey where
  /-- How many tokens there are in front of it. -/
  tokens : Nat
  /-- Where it starts. -/
  at_ : Nat × Nat × Nat
  /-- Must it be a key, by its indentation? -/
  needed : Bool

/-- A text that is being cut into tokens. -/
structure Lexer where
  /-- Where the rest starts. -/
  cursor : Cursor
  /-- The tokens so far. -/
  tokens : List Token := []
  /-- The column of the block around the cursor, -1 outside of all blocks. -/
  indent : Int := -1
  /-- The columns of the blocks around that one. -/
  outer : List Int := []
  /-- For every bracket around the cursor, and outside of all, the place where a key may have
  started. -/
  keys : List (Option MaybeKey) := [none]
  /-- May a key start here? -/
  keyAllowed : Bool := true

namespace Lexer

/-- Does the cursor stand between brackets? -/
def inFlow (l : Lexer) : Bool := 1 < l.keys.length

/-- Adds a token. -/
def push (l : Lexer) (t : Token) : Lexer := { l with tokens := l.tokens ++ [t] }

/-- Past `n` characters. -/
def skip (l : Lexer) (n : Nat) : Lexer := { l with cursor := l.cursor.skip n }

/-! ### Indentation -/

/-- Ends the blocks that start right of a column. -/
def unroll (column : Int) : (fuel : Nat) → Lexer → Lexer
  | 0, l => l
  | fuel + 1, l =>
    if l.inFlow || l.indent ≤ column then l
    else unroll column fuel
      { l with tokens := l.tokens ++ [.blockEnd], indent := l.outer.headD (-1), outer := l.outer.tail }

/-- Ends the blocks that start right of a column. -/
def close (l : Lexer) (column : Int) : Lexer := unroll column (l.outer.length + 1) l

/-- Starts a block in a column, unless there is one. Its token is put behind `n` others. -/
def roll (l : Lexer) (column : Nat) (n : Nat) (t : Token) : Lexer :=
  if l.inFlow || (column : Int) ≤ l.indent then l
  else { l with indent := column, outer := l.indent :: l.outer, tokens := l.tokens.insertIdx n t }

/-! ### Keys -/

/-- Gives up the place where a key may have started. -/
def dropKey (l : Lexer) : Option Lexer :=
  match l.keys with
  | some k :: ks => if k.needed then none else some { l with keys := none :: ks }
  | _ => some l

/-- Keeps the place as one where a key may start, if that is allowed. -/
def saveKey (l : Lexer) : Option Lexer :=
  if !l.keyAllowed then some l
  else do
    let c := l.cursor
    let key : MaybeKey :=
      ⟨l.tokens.length, (c.line, c.column, c.index), !l.inFlow && l.indent == (c.column : Int)⟩
    let l ← l.dropKey
    return { l with keys := some key :: l.keys.tail }

/-- The place where a key started that ends at the cursor. A key stands on one line and is not too
long. -/
def openKey (l : Lexer) : Option (Option MaybeKey) :=
  match l.keys with
  | some k :: _ =>
    if k.at_.1 < l.cursor.line || k.at_.2.2 + 1024 < l.cursor.index then
      if k.needed then none else some none
    else some (some k)
  | _ => some none

/-! ### Between tokens -/

/-- Past blanks, comments and line ends. Tabs do not count as blanks where a key may start. -/
def skipGap : (fuel : Nat) → Lexer → Lexer
  | 0, l => l
  | fuel + 1, l =>
    let c := l.cursor
    let c := if c.column == 0 && c.sees '\ufeff' then c.skip 1 else c
    let c := c.skipWhile fun ch => ch == ' ' || (ch == '\t' && (l.inFlow || !l.keyAllowed))
    let c := if c.sees '#' then c.skipWhile (fun ch => !isBreak ch) else c
    if c.atBreak then
      skipGap fuel { l with cursor := c.skipBreak, keyAllowed := l.keyAllowed || !l.inFlow }
    else { l with cursor := c }

/-! ### Tokens -/

/-- Is the character allowed in the name of an anchor? -/
def isNameChar (ch : Char) : Bool := ch.isAlphanum || ch == '_' || ch == '-'

/-- The name behind the sign of an anchor or of its mention. -/
def anchorName (c : Cursor) : Option (List Char) :=
  let name := c.rest.takeWhile isNameChar
  match (c.rest.drop name.length).head? with
  | none => if name.isEmpty then none else some name
  | some ch =>
    if name.isEmpty ||
        !(isBlank ch || isBreak ch || ['?', ':', ',', ']', '}', '%', '@', '`'].contains ch) then none
    else some name

/-- Is the character allowed in a tag? -/
def isTagChar (ch : Char) : Bool :=
  isNameChar ch || ";/?:@&=+$,.!~*'()[]%".toList.contains ch

/-- The tag at a cursor: its handle, the rest of it, and its length. -/
def tag (c : Cursor) : Option (List Char × List Char × Nat) :=
  match c.rest with
  | '!' :: '<' :: rest =>
    let uri := rest.takeWhile isTagChar
    if uri.isEmpty || (rest.drop uri.length).head? != some '>' then none
    else some ([], uri, uri.length + 3)
  | '!' :: rest =>
    let word := rest.takeWhile isNameChar
    match rest.drop word.length with
    | '!' :: rest =>
      let suffix := rest.takeWhile isTagChar
      if suffix.isEmpty then none
      else some ('!' :: word ++ ['!'], suffix, word.length + 2 + suffix.length)
    | _ =>
      let suffix := rest.takeWhile isTagChar
      if suffix.isEmpty then some ([], ['!'], 1) else some (['!'], suffix, suffix.length + 1)
  | _ => none

/-- Past a word, and the word. -/
def word (c : Cursor) : List Char × Cursor :=
  let w := c.rest.takeWhile (fun ch => !(isBlank ch || isBreak ch))
  (w, c.skip w.length)

/-- A directive: its token and the cursor behind its line. -/
def directive (c : Cursor) : Option (Token × Cursor) := do
  let (name, c) := word (c.skip 1)
  let (first, c) := word (c.skipWhile isBlank)
  if name == "YAML".toList then
    match first.takeWhile Char.isDigit, first.dropWhile Char.isDigit with
    | _ :: _, '.' :: minor =>
      if minor.isEmpty || !minor.all Char.isDigit then none
      else return (.version (first == "1.1".toList), ← Scalar.endLine c)
    | _, _ => none
  else if name == "TAG".toList then
    let (uri, c) := word (c.skipWhile isBlank)
    if uri.isEmpty || first.head? != some '!' || first.getLast? != some '!' then none
    else return (.handle first, ← Scalar.endLine c)
  else none

/-- Adds a token of one character. -/
def sign (l : Lexer) (t : Token) : Lexer := (l.push t).skip 1

/-- A token of the start of a line. -/
def lineStart (l : Lexer) (t : Token) (cursor : Cursor) : Option Lexer := do
  let l ← (l.close (-1)).dropKey
  return { l.push t with keyAllowed := false, cursor }

/-- An opening bracket or brace. -/
def openFlow (l : Lexer) (t : Token) : Option Lexer := do
  let l ← l.saveKey
  return { l.sign t with keys := none :: l.keys, keyAllowed := true }

/-- A closing bracket or brace. -/
def closeFlow (l : Lexer) (t : Token) : Option Lexer := do
  let l ← l.dropKey
  return { l.sign t with keys := if l.inFlow then l.keys.tail else l.keys, keyAllowed := false }

/-- The dash in front of an entry. -/
def entry (l : Lexer) : Option Lexer := do
  if !l.inFlow && !l.keyAllowed then none
  let l ← (l.roll l.cursor.column l.tokens.length .blockList).dropKey
  return { l.sign .entry with keyAllowed := true }

/-- The sign in front of a key. -/
def explicitKey (l : Lexer) : Option Lexer := do
  if !l.inFlow && !l.keyAllowed then none
  let l ← (l.roll l.cursor.column l.tokens.length .blockMap).dropKey
  return { l.sign .key with keyAllowed := !l.inFlow }

/-- The colon in front of a value. If a key was open, its sign is put in front of it. -/
def colon (l : Lexer) : Option Lexer := do
  match ← l.openKey with
  | some k =>
    let l := { l with tokens := l.tokens.insertIdx k.tokens .key }
    let l := l.roll k.at_.2.1 k.tokens .blockMap
    return { l.sign .value with keys := none :: l.keys.tail, keyAllowed := false }
  | none =>
    if !l.inFlow && !l.keyAllowed then none
    let l := l.roll l.cursor.column l.tokens.length .blockMap
    return { l.sign .value with keyAllowed := !l.inFlow }

/-- A token that may be a key. -/
def word? (l : Lexer) (t : Token) (cursor : Cursor) : Option Lexer := do
  let l ← l.saveKey
  return { l.push t with keyAllowed := false, cursor }

/-- May a plain scalar start with the next character? -/
def startsPlain (l : Lexer) (ch : Char) : Bool :=
  if ch == '-' then !((l.cursor.rest.drop 1).head?.any isBlank)
  else if ch == '?' || ch == ':' then !l.inFlow && !l.cursor.endsAfter 1
  else !(isBlank ch || isBreak ch || ",[]{}#&*!|>'\"%@`".toList.contains ch)

/-- The next token, which starts with `ch`. -/
def token (l : Lexer) (ch : Char) : Option Lexer :=
  let c := l.cursor
  if c.column == 0 && ch == '%' then do
    let (t, after) ← directive c
    l.lineStart t after
  else if c.atDocumentMark then
    l.lineStart (if ch == '-' then .documentStart else .documentEnd) (c.skip 3)
  else if ch == '[' then l.openFlow .flowList
  else if ch == '\x7b' then l.openFlow .flowMap
  else if ch == ']' then l.closeFlow .flowListEnd
  else if ch == '\x7d' then l.closeFlow .flowMapEnd
  else if ch == ',' then do
    let l ← l.dropKey
    return { l.sign .comma with keyAllowed := true }
  else if ch == '-' && c.endsAfter 1 then l.entry
  else if ch == '?' && (l.inFlow || c.endsAfter 1) then l.explicitKey
  else if ch == ':' && (l.inFlow || c.endsAfter 1) then l.colon
  else if ch == '*' || ch == '&' then do
    let name ← anchorName (c.skip 1)
    l.word? (if ch == '*' then .alias name else .anchor name) (c.skip (name.length + 1))
  else if ch == '!' then do
    let (handle, suffix, length) ← tag c
    let after := c.skip length
    if !after.endsAfter 0 then none
    l.word? (.tag handle suffix) after
  else if (ch == '|' || ch == '>') && !l.inFlow then do
    let (text, after) ← Scalar.block (ch == '|') l.indent c
    let l ← l.dropKey
    return { l.push (.scalar true text) with keyAllowed := true, cursor := after }
  else if ch == '\'' then do
    let (text, after) ← Scalar.single c
    l.word? (.scalar true text) after
  else if ch == '"' then do
    let (text, after) ← Scalar.double c
    l.word? (.scalar true text) after
  else if l.startsPlain ch then do
    let (text, after, broken) ← Scalar.plain l.inFlow (l.indent + 1) c
    let l ← l.word? (.scalar false text) after
    return { l with keyAllowed := broken }
  else none

/-- The next token. -/
def step (l : Lexer) : Option Lexer :=
  let l := skipGap (l.cursor.rest.length + 1) l
  let l := l.close l.cursor.column
  match l.cursor.peek with
  | none => do
    let l ← (l.close (-1)).dropKey
    return { l.push .finish with keyAllowed := false }
  | some ch => l.token ch

/-- All tokens, and whether there was no fault. -/
def run : (fuel : Nat) → Lexer → List Token × Bool
  | 0, l => (l.tokens, false)
  | fuel + 1, l =>
    match l.step with
    | none => (l.tokens, false)
    | some l => if l.tokens.getLast? == some .finish then (l.tokens, true) else run fuel l

end Lexer

/-- All tokens of a text up to the first fault, and whether there was none. -/
def tokens (text : List Char) : List Token × Bool :=
  Lexer.run (text.length + 2) { cursor := { rest := text } }

end Spotlight.Yaml
