import Spotlight.Settings.Basic
import Spotlight.Settings.Csv

/-!
# Flags of the command line

* `Flag`, `Flag.all` — the flags, with what they take and how they change the settings;
* `Flags.parse` — the settings a command line asks for, and which flags it has;
* `Flags.usage`, `Flags.table` — what is printed as help.

A flag is written `--name value`, `--name=value`, `-n value`, `-nvalue` or `-n=value`; switches need no
value and can be grouped behind one dash. Two dashes end the flags, and what is no flag is left out.
-/

namespace Spotlight

open Bytes

/-- What a flag takes, and how it changes the settings. -/
inductive Flag.Kind
  /-- A text. -/
  | text (initial : Bytes) (put : Bytes → Settings → Settings)
  /-- A truth value. -/
  | switch (put : Bool → Settings → Settings)
  /-- A list of texts, added to those already given. -/
  | texts (put : List Bytes → Settings → Settings)

/-- A flag of the command line. -/
structure Flag where
  /-- The long name. -/
  name : Bytes
  /-- The short name, if there is one. -/
  short : Option UInt8
  /-- What it takes. -/
  kind : Flag.Kind
  /-- What it is for. -/
  help : Bytes

namespace Flag

/-- A flag that takes a text. -/
def ofText (name : Bytes) (short : Option UInt8) (get : Settings → Bytes)
    (put : Bytes → Settings → Settings) (help : Bytes) : Flag :=
  ⟨name, short, .text (get {}) put, help⟩

/-- A flag that takes a truth value. -/
def ofSwitch (name : Bytes) (short : Option UInt8) (put : Bool → Settings → Settings)
    (help : Bytes) : Flag :=
  ⟨name, short, .switch put, help⟩

/-- The flags, ordered by name. -/
def all : List Flag :=
  [ofText "anchor" (some 0x61) (·.anchor) (fun v s => { s with anchor := v })
     "Group that directly follows the disabled region.",
   ofText "backup" (some 0x42) (·.backup) (fun v s => { s with backup := v })
     "Backup restored on failure (default: <file>.backup).",
   ofText "config" none (·.config) (fun v s => { s with config := v })
     "Project file with default flag values (default: ./.focus.yaml).",
   ofSwitch "copy" (some 0x63) (fun v s => { s with copy := v })
     "Copy the formatted report to the clipboard.",
   ofSwitch "dry-run" (some 0x64) (fun v s => { s with dryRun := v })
     "Print the change as a unified diff without writing.",
   ofText "file" (some 0x66) (·.file) (fun v s => { s with file := v })
     "Test file containing the disabled region.",
   ofText "format" none (·.format) (fun v s => { s with format := v })
     "Report format: 'text', 'markdown' or 'html'.",
   ofText "keyword" (some 0x6b) (·.keyword) (fun v s => { s with keyword := v })
     "Call that introduces a group.",
   ofSwitch "list" (some 0x4c) (fun v s => { s with list := v })
     "List the groups in the disabled region.",
   ⟨"lookup-dir", some 0x6c, .texts fun v s => { s with lookupDirs := s.lookupDirs ++ v },
     "Directories to look for the test file in (default: current directory)."⟩,
   ofText "marker" (some 0x6d) (·.marker) (fun v s => { s with marker := v })
     "Literal text that opens the disabled region.",
   ofText "name" (some 0x6e) (·.name) (fun v s => { s with name := v }) "Group to activate.",
   ofSwitch "no-animation" none (fun v s => { s with noAnimation := v })
     "Disable the spinner and interactive summary.",
   ofSwitch "nvim" none (fun v s => { s with nvim := v })
     "Write through Neovim so open buffers are updated.",
   ofSwitch "redo" (some 0x52) (fun v s => { s with redo := v })
     "Redo the last undone activation.",
   ofText "report" (some 0x72) (·.report) (fun v s => { s with report := v })
     "Print failed tests from a Vitest JSON report ('-' for stdin).",
   ofText "report-out" (some 0x6f) (·.reportOut) (fun v s => { s with reportOut := v })
     "Save failed test details to this file instead of printing.",
   ofSwitch "restore-backup" none (fun v s => { s with restoreBackup := v })
     "On failure restore the file from the backup, which must exist, instead of its content before this run.",
   ofText "scan" (some 0x73) (·.scan) (fun v s => { s with scan := v })
     "How to find a group's end: 'balanced' or 'heuristic'.",
   ofSwitch "undo" (some 0x75) (fun v s => { s with undo := v }) "Undo the last activation."]

/-- The flag of a long name. -/
def ofName? (name : Bytes) : Option Flag := all.find? fun f => f.name == name

/-- The flag of a short name. -/
def ofShort? (short : UInt8) : Option Flag := all.find? fun f => f.short == some short

/-- Does the flag stand without a value? -/
def isSwitch (f : Flag) : Bool :=
  match f.kind with
  | .switch _ => true
  | _ => false

/-- The names of a flag, as messages show them. -/
def names (f : Flag) : Bytes :=
  match f.short with
  | some c => [0x2d, c] ++ ", --" ++ f.name
  | none => "--" ++ f.name

/-- The truth value a text stands for. -/
def truth? (s : Bytes) : Option Bool :=
  let among (words : List String) := words.any fun w => ofString w == s
  if among ["1", "t", "T", "TRUE", "true", "True"] then some true
  else if among ["0", "f", "F", "FALSE", "false", "False"] then some false
  else none

/-- The settings with a flag given a value, or what is wrong with the value. -/
def set (f : Flag) (value : Bytes) (s : Settings) : Except Bytes Settings :=
  match f.kind with
  | .text _ put => .ok (put value s)
  | .switch put =>
    match truth? value with
    | some b => .ok (put b s)
    | none =>
      .error ("strconv.ParseBool: parsing " ++ Quoted.text value ++ ": invalid syntax")
  | .texts put => ((Csv.record value).mapError Csv.Fault.message).map fun vs => put vs s

end Flag

namespace Flags

/-- The settings so far, and the names of the flags that were given. -/
structure Given where
  /-- The settings so far. -/
  settings : Settings := {}
  /-- The names of the flags that were given. -/
  names : List Bytes := []

/-- Was the flag of that name given? -/
def Given.has (g : Given) (name : Bytes) : Bool := g.names.contains name

/-- Gives a flag a value. -/
def Given.set (g : Given) (f : Flag) (value : Bytes) : Except Failure Given :=
  match f.set value g.settings with
  | .ok s => .ok ⟨s, f.name :: g.names⟩
  | .error reason =>
    .error (.flags ("invalid argument " ++ Quoted.text value ++ " for " ++ Quoted.text f.names ++
      " flag: " ++ reason))

/-- What an argument is. -/
inductive Argument
  /-- No flag. -/
  | plain
  /-- The end of the flags. -/
  | stop
  /-- A long flag, with the text behind its two dashes. -/
  | long (text : Bytes)
  /-- Short flags, the text behind the dash. -/
  | short (text : Bytes)

/-- Tells flags from other arguments. -/
def classify : Bytes → Argument
  | [0x2d, 0x2d] => .stop
  | 0x2d :: 0x2d :: text => .long text
  | 0x2d :: c :: text => .short (c :: text)
  | _ => .plain

/-- A long flag: its name, and its value if one is written behind an equals sign. -/
def splitLong (text : Bytes) : Bytes × Option Bytes :=
  let name := text.takeWhile (· != 0x3d)
  match text.dropWhile (· != 0x3d) with
  | [] => (name, none)
  | _ :: value => (name, some value)

/-- How far a flag is read: it is done with, or it needs the next argument as its value. -/
inductive Progress
  /-- It is done with. -/
  | done (given : Given)
  /-- It needs a value; what is said if there is none is told too. -/
  | needs (given : Given) (flag : Flag) (missing : Bytes)

/-- Reads a long flag. -/
def long (g : Given) (text : Bytes) : Except Failure Progress :=
  if text.head? == some 0x2d || text.head? == some 0x3d then
    .error (.flags ("bad flag syntax: --" ++ text))
  else
    let (name, value) := splitLong text
    match Flag.ofName? name, value with
    | none, _ =>
      if name = "help" then .error .help else .error (.flags ("unknown flag: --" ++ name))
    | some f, some value => (g.set f value).map .done
    | some f, none =>
      if f.isSwitch then (g.set f "true").map .done
      else .ok (.needs g f ("flag needs an argument: --" ++ name))

/-- A short name between quotes. A byte that is no ASCII character is shown by the first byte of the
UTF-8 form of its code. -/
def quotedByte (c : UInt8) : Bytes := Quoted.char ((Rune.encode c.toNat).headD c).toNat

/-- Reads short flags behind one dash. -/
def short (g : Given) : Bytes → Except Failure Progress
  | [] => .ok (.done g)
  | c :: rest =>
    if Bytes.startsWith (c :: rest) "test." then .ok (.done g)
    else match Flag.ofShort? c with
      | none =>
        if c = 0x68 then .error .help
        else .error
          (.flags ("unknown shorthand flag: " ++ quotedByte c ++ " in -" ++ (c :: rest)))
      | some f =>
        match rest with
        | 0x3d :: v :: value => (g.set f (v :: value)).map .done
        | [] =>
          if f.isSwitch then (g.set f "true").map .done
          else .ok (.needs g f ("flag needs an argument: " ++ quotedByte c ++ " in -" ++ [c]))
        | r :: rs =>
          if f.isSwitch then do short (← g.set f "true") (r :: rs)
          else (g.set f (r :: rs)).map .done

/-- Reads one argument. -/
def argument (g : Given) : Argument → Except Failure Progress
  | .long text => long g text
  | .short text => short g text
  | _ => .ok (.done g)

/-- Reads arguments. -/
def parseFrom (g : Given) : List Bytes → Except Failure Given
  | [] => .ok g
  | a :: args =>
    match classify a with
    | .stop => .ok g
    | arg =>
      match argument g arg with
      | .error failure => .error failure
      | .ok (.done g) => parseFrom g args
      | .ok (.needs g f missing) =>
        match args with
        | [] => .error (.flags missing)
        | value :: args =>
          match g.set f value with
          | .error failure => .error failure
          | .ok g => parseFrom g args

/-- The settings a command line asks for. -/
def parse (args : List Bytes) : Except Failure Given := parseFrom {} args

/-! ### Help -/

/-- How a command line is written. -/
def usage : Bytes :=
  "Usage: focus [flags]\n\n" ++
  "Activate one group of a comment-disabled block of tests and re-disable the rest.\n\n" ++
  "Example: focus -f lib/bigint.test.js -n add\n" ++
  "         focus -r test-results.json -o failed_tests_details.txt\n\n" ++
  "Flags:\n"

/-- The names of a flag and the kind of its value, at the start of a line. -/
def heading (f : Flag) : Bytes :=
  (if f.short.isSome then "  " else "      ") ++ f.names ++
    (match f.kind with
      | .text .. => ofString " string"
      | .switch _ => []
      | .texts _ => ofString " strings")

/-- What a flag is for, and its value if it is not given. -/
def remark (f : Flag) : Bytes :=
  f.help ++ (match f.kind with
    | .text (c :: cs) _ => " (default " ++ Quoted.text (c :: cs) ++ ")"
    | _ => [])

/-- The flags, one on a line. -/
def table : Bytes :=
  let width := (Flag.all.map fun f => (heading f).length).foldl max 0
  Flag.all.flatMap fun f =>
    heading f ++ List.replicate (width + 3 - (heading f).length) space ++ remark f ++ "\n"

end Flags

end Spotlight
