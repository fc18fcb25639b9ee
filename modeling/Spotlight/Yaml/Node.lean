import Spotlight.Yaml.Token

/-!
# The tree of a YAML text

* `Yaml.Node` — a scalar, a list or a mapping;
* `Node.ofTokens?` — the first document of a text, from its tokens;
* `Node.parse` — the first document of a file.
-/

namespace Spotlight.Yaml

/-- A node of a document. Tags are written in their short form, empty for none. -/
inductive Node
  /-- A scalar, with or without quotes. -/
  | scalar (tag : Bytes) (quoted : Bool) (text : Bytes)
  /-- A list. -/
  | list (items : List Node)
  /-- A mapping, in the order it was written. -/
  | map (pairs : List (Node × Node))
deriving Inhabited

namespace Node

/-- What stands where nothing was written. -/
def empty : Node := .scalar [] false []

/-- What is left of a document that is being read. -/
structure Reading where
  /-- The tokens that are left. -/
  tokens : List Token
  /-- Do they reach to the end of the text? -/
  isWhole : Bool
  /-- The handles for tags. -/
  handles : List (List Char) := [['!'], ['!', '!']]
  /-- The nodes with anchors so far. -/
  anchors : List (List Char × Node) := []

/-- Reads a part of a document. -/
abbrev Reader := StateT Reading Option

/-- The next token. Two more have to be there, as a fault shows that early. -/
def peek : Reader Token := do
  let r ← get
  match r.tokens with
  | [] => failure
  | t :: ts => if r.isWhole || 2 ≤ ts.length then return t else failure

/-- Past a token. -/
def advance : Reader Unit := modify fun r => { r with tokens := r.tokens.tail }

/-- Past a token, and the one behind it. -/
def following : Reader Token := do
  advance
  peek

/-- A tag in its short form. -/
def shortTag (handle suffix : List Char) : Reader Bytes := do
  let r ← get
  let full := encode suffix
  if handle.isEmpty then
    match Bytes.strip? "tag:yaml.org,2002:" full with
    | some rest => return "!!" ++ rest
    | none => return full
  else if r.handles.contains handle then return encode handle ++ full
  else failure

/-- The anchor and the tag in front of a node, in either order. -/
def properties : Reader (Option (List Char) × Option Bytes) := do
  match ← peek with
  | .anchor name =>
    match ← following with
    | .tag handle suffix =>
      advance
      return (some name, some (← shortTag handle suffix))
    | _ => return (some name, none)
  | .tag handle suffix =>
    match ← following with
    | .anchor name =>
      advance
      return (some name, some (← shortTag handle suffix))
    | _ => return (none, some (← shortTag handle suffix))
  | _ => return (none, none)

/-- Does a token end an entry of an indented mapping? -/
def endsBlock : Token → Bool
  | .key | .value | .blockEnd => true
  | _ => false

/-- Keeps a node under its anchor. -/
def keep (anchor : Option (List Char)) (n : Node) : Reader Node := do
  if let some name := anchor then
    modify fun r => { r with anchors := (name, n) :: r.anchors }
  return n

/-- Past the comma in front of an entry between brackets, or past the bracket behind the last one. The
result is the token the entry starts with. -/
def nextEntry (close : Token) (first : Bool) : Reader (Option Token) := do
  let t ← peek
  if t = close then
    advance
    return none
  else if first then return some t
  else if t ≠ .comma then failure
  else
    let t ← following
    if t = close then
      advance
      return none
    else return some t

mutual

/-- A node. Indented ones are allowed if `block` says so, and entries without indentation of their own
if `flat` says so. -/
def node : (fuel : Nat) → (block flat : Bool) → Reader Node
  | 0, _, _ => failure
  | fuel + 1, block, flat => do
    match ← peek with
    | .alias name =>
      advance
      match (← get).anchors.lookup name with
      | some n => return n
      | none => failure
    | _ =>
      let (anchor, tag) ← properties
      match ← peek with
      | .scalar quoted text =>
        advance
        keep anchor (.scalar (tag.getD []) quoted (encode text))
      | .flowList =>
        advance
        keep anchor (.list (← flowItems fuel true))
      | .flowMap =>
        advance
        keep anchor (.map (← flowPairs fuel true))
      | .entry =>
        if flat then keep anchor (.list (← flatItems fuel))
        else if anchor.isSome || tag.isSome then keep anchor (.scalar (tag.getD []) false [])
        else failure
      | .blockList =>
        if !block then failure
        advance
        keep anchor (.list (← blockItems fuel))
      | .blockMap =>
        if !block then failure
        advance
        keep anchor (.map (← blockPairs fuel))
      | _ =>
        if anchor.isSome || tag.isSome then keep anchor (.scalar (tag.getD []) false [])
        else failure

/-- The entries of an indented list. -/
def blockItems : (fuel : Nat) → Reader (List Node)
  | 0 => failure
  | fuel + 1 => do
    match ← peek with
    | .blockEnd =>
      advance
      return []
    | .entry =>
      let t ← following
      let item ← if t = .entry || t = .blockEnd then pure empty else node fuel true false
      return item :: (← blockItems fuel)
    | _ => failure

/-- The entries of a list without indentation of its own. -/
def flatItems : (fuel : Nat) → Reader (List Node)
  | 0 => failure
  | fuel + 1 => do
    match ← peek with
    | .entry =>
      let t ← following
      let item ← if t = .entry || endsBlock t then pure empty else node fuel true false
      return item :: (← flatItems fuel)
    | _ => return []

/-- The pairs of an indented mapping. -/
def blockPairs : (fuel : Nat) → Reader (List (Node × Node))
  | 0 => failure
  | fuel + 1 => do
    match ← peek with
    | .blockEnd =>
      advance
      return []
    | .key =>
      let t ← following
      let key ← if endsBlock t then pure empty else node fuel true true
      let value ← blockValue fuel
      return (key, value) :: (← blockPairs fuel)
    | _ => failure

/-- The value behind a key of an indented mapping. -/
def blockValue : (fuel : Nat) → Reader Node
  | 0 => failure
  | fuel + 1 => do
    match ← peek with
    | .value =>
      let t ← following
      if endsBlock t then return empty else node fuel true true
    | _ => return empty

/-- The entries of a list between brackets. -/
def flowItems : (fuel : Nat) → (first : Bool) → Reader (List Node)
  | 0, _ => failure
  | fuel + 1, first => do
    match ← nextEntry .flowListEnd first with
    | none => return []
    | some .key =>
      advance
      let pair ← flowPair fuel
      return .map [pair] :: (← flowItems fuel false)
    | some _ =>
      let item ← node fuel false false
      return item :: (← flowItems fuel false)

/-- A single pair among the entries of a list between brackets. -/
def flowPair : (fuel : Nat) → Reader (Node × Node)
  | 0 => failure
  | fuel + 1 => do
    let t ← peek
    let key ← if t = .value || t = .comma || t = .flowListEnd then
        advance
        pure empty
      else node fuel false false
    match ← peek with
    | .value =>
      let t ← following
      if t = .comma || t = .flowListEnd then return (key, empty)
      else return (key, ← node fuel false false)
    | _ => return (key, empty)

/-- The pairs of a mapping between braces. -/
def flowPairs : (fuel : Nat) → (first : Bool) → Reader (List (Node × Node))
  | 0, _ => failure
  | fuel + 1, first => do
    match ← nextEntry .flowMapEnd first with
    | none => return []
    | some .key =>
      let t ← following
      let key ← if t = .value || t = .comma || t = .flowMapEnd then pure empty
        else node fuel false false
      let value ← flowValue fuel
      return (key, value) :: (← flowPairs fuel false)
    | some _ =>
      let key ← node fuel false false
      return (key, empty) :: (← flowPairs fuel false)

/-- The value behind a key between braces. -/
def flowValue : (fuel : Nat) → Reader Node
  | 0 => failure
  | fuel + 1 => do
    match ← peek with
    | .value =>
      let t ← following
      if t = .comma || t = .flowMapEnd then return empty else node fuel false false
    | _ => return empty

end

/-- Reads directives. There is at most one version, and it must be a known one. -/
def directives : (fuel : Nat) → (versioned : Bool) → Reader Unit
  | 0, _ => failure
  | fuel + 1, versioned => do
    match ← peek with
    | .version isKnown =>
      if versioned || !isKnown then failure
      advance
      directives fuel true
    | .handle name =>
      modify fun r => { r with handles := name :: r.handles }
      advance
      directives fuel versioned
    | _ => return ()

/-- The first document, if there is one. -/
def document (fuel : Nat) : Reader (Option Node) := do
  match ← peek with
  | .finish => return none
  | .version _ | .handle _ | .documentStart =>
    directives fuel false
    if (← peek) ≠ .documentStart then failure
    match ← following with
    | .version _ | .handle _ | .documentStart | .documentEnd | .finish => return none
    | _ =>
      let n ← node fuel true false
      let _ ← peek
      return some n
  | _ =>
    let n ← node fuel true false
    let _ ← peek
    return some n

/-- The first document of a text, if it has one, from its tokens. -/
def ofTokens? (tokens : List Token × Bool) : Option (Option Node) :=
  (document (2 * tokens.1.length + 2)
    { tokens := tokens.1, isWhole := tokens.2 }).map Prod.fst

/-- The first document of a file, if it has one. -/
def parse (s : Bytes) : Option (Option Node) := do ofTokens? (Yaml.tokens (← decode s))

end Node

end Spotlight.Yaml
