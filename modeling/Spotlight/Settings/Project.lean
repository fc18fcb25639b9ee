import Spotlight.Files.Backup
import Spotlight.Settings.Flags
import Spotlight.Yaml.Node

/-!
# The project file

A project file holds defaults for some of the flags.

* `Project` — what a project file can hold;
* `Project.parse` — reads one;
* `Project.apply` — fills in what the command line left open;
* `Settings.ofArgs` — the settings of a command line, in a project.
-/

namespace Spotlight

open Yaml

/-- What a project file holds. -/
structure Project where
  /-- The test file. -/
  file : Option Bytes := none
  /-- The backup. -/
  backup : Option Bytes := none
  /-- The group to activate. -/
  name : Option Bytes := none
  /-- The marker of the disabled region. -/
  marker : Option Bytes := none
  /-- The group behind the disabled region. -/
  anchor : Option Bytes := none
  /-- The function that introduces a group. -/
  keyword : Option Bytes := none
  /-- How the end of a group is found. -/
  scan : Option Bytes := none
  /-- The folders to look for the test file in. -/
  lookupDirs : List Bytes := []
  /-- The results file to report on. -/
  report : Option Bytes := none
  /-- The format of the report. -/
  format : Option Bytes := none
  /-- Are files written through an editor? -/
  nvim : Option Bool := none
  /-- Is a file restored from its backup when an activation fails? -/
  restoreBackup : Option Bool := none
deriving DecidableEq, Repr

namespace Project

/-! ### Scalars -/

/-- Is the text one of some words? -/
def among (words : List String) (s : Bytes) : Bool := words.any fun w => Bytes.ofString w == s

/-- Does a plain scalar stand for nothing? -/
def isNull (s : Bytes) : Bool := among ["", "~", "null", "Null", "NULL"] s

/-- The truth value a plain scalar stands for. -/
def truth? (s : Bytes) : Option Bool :=
  if among ["true", "True", "TRUE"] s then some true
  else if among ["false", "False", "FALSE"] s then some false
  else none

/-- A number without its sign. -/
def unsigned (s : Bytes) : Bytes :=
  match s with
  | c :: rest => if c = 0x2b || c = 0x2d then rest else s
  | [] => []

/-- Does a plain scalar stand for an integer? -/
def isInteger (s : Bytes) : Bool :=
  match (unsigned s).filter (· != 0x5f) with
  | 0x30 :: 0x78 :: rest => !rest.isEmpty && rest.all fun c => (Bytes.hexValue? c).isSome
  | 0x30 :: 0x6f :: rest => !rest.isEmpty && rest.all fun c => 0x30 ≤ c && c < 0x38
  | 0x30 :: 0x62 :: rest => !rest.isEmpty && rest.all fun c => c = 0x30 || c = 0x31
  | rest => !rest.isEmpty && rest.all Bytes.isDigit

/-- Does a plain scalar stand for a number with a point or an exponent? -/
def isDecimal (s : Bytes) : Bool :=
  let s := (unsigned s).filter (· != 0x5f)
  let whole := s.takeWhile Bytes.isDigit
  let s := s.dropWhile Bytes.isDigit
  let fraction := if s.head? = some 0x2e then s.tail.takeWhile Bytes.isDigit else []
  let s := if s.head? = some 0x2e then s.tail.dropWhile Bytes.isDigit else s
  let exponent := match s with
    | [] => true
    | e :: rest =>
      (e = 0x65 || e = 0x45) && !(unsigned rest).isEmpty && (unsigned rest).all Bytes.isDigit
  (!whole.isEmpty || !fraction.isEmpty) && exponent

/-- Is the tag of a scalar one that its text has by itself? Anything is a string. -/
def isFitting (tag : Bytes) (quoted : Bool) (text : Bytes) : Bool :=
  tag.isEmpty || tag == Bytes.ofString "!" || tag == Bytes.ofString "!!str" ||
    (!quoted || tag != Bytes.ofString "!!null") &&
    ((tag == Bytes.ofString "!!null" && isNull text) ||
      (tag == Bytes.ofString "!!bool" && (truth? text).isSome) ||
      (tag == Bytes.ofString "!!int" && isInteger text) ||
      (tag == Bytes.ofString "!!float" && (isDecimal text || isInteger text)))

/-- A scalar as a string or, without quotes and tag, perhaps as nothing. Nodes of another kind and tags
that do not fit are refused. -/
def scalar? : Node → Option (Option Bytes)
  | .scalar tag quoted text =>
    if !isFitting tag quoted text then none
    else if tag == Bytes.ofString "!!str" || quoted || !isNull text then some (some text)
    else some none
  | _ => none

/-- A truth value, or nothing. Besides the usual words some older ones are known, also between
quotes. -/
def switch? : Node → Option (Option Bool)
  | n@(.scalar tag quoted text) => do
    match ← scalar? n with
    | none => return none
    | some _ =>
      let plain := !quoted && tag != Bytes.ofString "!!str"
      if plain && (truth? text).isSome then return truth? text
      else if among ["y", "Y", "yes", "on"] text then return some true
      else if among ["n", "N", "no", "off"] text then return some false
      else none
  | _ => none

/-- A list of strings, or nothing. Items that stand for nothing are left out. -/
def strings? : Node → Option (List Bytes)
  | .list items => do return (← items.mapM scalar?).filterMap id
  | n => do
    match ← scalar? n with
    | none => return []
    | some _ => none

/-! ### The whole file -/

/-- The project with the field of a key read from a node. Unknown keys change nothing. -/
def field (p : Project) (key : Bytes) (n : Node) : Option Project :=
  let is (name : String) : Bool := key == Bytes.ofString name
  if is "file" then (scalar? n).map fun v => { p with file := v }
  else if is "backup" then (scalar? n).map fun v => { p with backup := v }
  else if is "name" then (scalar? n).map fun v => { p with name := v }
  else if is "marker" then (scalar? n).map fun v => { p with marker := v }
  else if is "anchor" then (scalar? n).map fun v => { p with anchor := v }
  else if is "keyword" then (scalar? n).map fun v => { p with keyword := v }
  else if is "scan" then (scalar? n).map fun v => { p with scan := v }
  else if is "lookup_dirs" then (strings? n).map fun v => { p with lookupDirs := v }
  else if is "report" then (scalar? n).map fun v => { p with report := v }
  else if is "format" then (scalar? n).map fun v => { p with format := v }
  else if is "nvim" then (switch? n).map fun v => { p with nvim := v }
  else if is "restore_backup" then (switch? n).map fun v => { p with restoreBackup := v }
  else some p

/-- What tells the keys of a mapping apart: the kind of node, and its text. -/
def keyText : Node → Nat × Bytes
  | .scalar _ _ text => (0, text)
  | .list _ => (1, [])
  | .map _ => (2, [])

/-- Does a mapping have a key twice? -/
def hasRepeats : List (Node × Node) → Bool
  | [] => false
  | (k, _) :: ps => ps.any (fun (k', _) => keyText k' == keyText k) || hasRepeats ps

/-- Is the node the key that takes over the pairs of other mappings? -/
def isMerge : Node → Bool
  | .scalar tag quoted text => text == Bytes.ofString "<<" && !quoted && tag.isEmpty
  | _ => false

/-- The pairs taken over from a node, which is a mapping or a list of mappings. -/
def merged? : Node → Option (List (Node × Node))
  | .map pairs => if hasRepeats pairs then none else some pairs
  | .list items => do
    let maps ← items.mapM fun
      | .map pairs => if hasRepeats pairs then none else some pairs
      | _ => none
    return maps.flatten
  | _ => none

/-- Reads pairs, leaving out the keys in `skipped`. -/
def pairs (p : Project) : (skipped : List Bytes) → List (Node × Node) → Option Project
  | _, [] => some p
  | skipped, (k, v) :: ps =>
    if isMerge k then pairs p skipped ps
    else do
      match ← scalar? k with
      | none => pairs p skipped ps
      | some key =>
        if skipped.contains key then pairs p skipped ps
        else pairs (← field p key v) (key :: skipped) ps

/-- The project a mapping stands for. -/
def ofPairs (ps : List (Node × Node)) : Option Project :=
  if hasRepeats ps then none
  else do
    let p ← pairs {} [] ps
    match ps.find? fun (k, _) => isMerge k with
    | none => return p
    | some (_, other) =>
      let own ← (ps.filter fun (k, _) => !isMerge k).mapM fun (k, _) => scalar? k
      pairs p (own.filterMap id) (← merged? other)

/-- The project a file stands for. A file without content holds nothing. -/
def parse (s : Bytes) : Option Project := do
  match ← Node.parse s with
  | none => return {}
  | some (.map ps) => ofPairs ps
  | some n => do
    match ← scalar? n with
    | none => return {}
    | some _ => none

/-- The settings with all filled in from a project that the command line left open. The results file is
used only if a report is asked for. -/
def apply (p : Project) (given : Flags.Given) : Settings :=
  let s := given.settings
  let pick {α : Type} (flag : Bytes) (old : α) (new : Option α) : α :=
    if given.has flag then old else new.getD old
  { s with
    file := pick "file" s.file p.file
    backup := pick "backup" s.backup p.backup
    name := pick "name" s.name p.name
    marker := pick "marker" s.marker p.marker
    anchor := pick "anchor" s.anchor p.anchor
    keyword := pick "keyword" s.keyword p.keyword
    scan := pick "scan" s.scan p.scan
    format := pick "format" s.format p.format
    report := if s.reportOut.isEmpty then s.report else pick "report" s.report p.report
    lookupDirs :=
      pick "lookup-dir" s.lookupDirs (if p.lookupDirs.isEmpty then none else some p.lookupDirs)
    nvim := pick "nvim" s.nvim p.nvim
    restoreBackup := pick "restore-backup" s.restoreBackup p.restoreBackup }

/-- The name of the usual project file. -/
def fileName : Bytes := ".focus.yaml"

variable {m : Type → Type} [Monad m] [Files.MonadFiles m]

/-- Fills in from the project file what the command line left open. The usual project file may be
missing. -/
def fill (given : Flags.Given) : ExceptT Failure m Settings := do
  let config := given.settings.config
  let path := if config.isEmpty then fileName else config
  match ← (Files.MonadFiles.read path : m _) with
  | .error fault =>
    if fault.isMissing && config.isEmpty then return given.settings
    else throw (.during "failed to read project file" (.files fault))
  | .ok text =>
    match parse text with
    | none => throw (.projectMalformed path)
    | some p => return p.apply given

end Project

/-- The settings of a command line. -/
def Settings.ofArgs {m : Type → Type} [Monad m] [Files.MonadFiles m] (args : List Bytes) :
    ExceptT Failure m Settings := do
  let given ← ExceptT.mk (pure (Flags.parse args))
  let s ← Project.fill given
  ExceptT.mk (pure s.check)
  return s

end Spotlight
