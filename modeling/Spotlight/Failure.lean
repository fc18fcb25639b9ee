import Spotlight.Files.Fault
import Spotlight.Options

/-!
# Why a command fails

* `Failure` — the reasons, with what was going on around them;
* `Failure.message` — the wording.
-/

namespace Spotlight

/-- Why a command fails. -/
inductive Failure
  /-- The group cannot be activated. -/
  | activation (fault : Fault)
  /-- A file operation was refused. -/
  | files (fault : Files.Fault)
  /-- There is no backup at the path. -/
  | backupMissing (path : Bytes)
  /-- There is no results file at the path. -/
  | resultsMissing (path : Bytes)
  /-- The results read from there are not a results file. -/
  | resultsMalformed (source : Bytes)
  /-- The history file at the path cannot be decoded. -/
  | historyMalformed (path : Bytes)
  /-- The position in the history file at the path is out of range. -/
  | historyIndex (path : Bytes) (index : Int)
  /-- The project file at the path cannot be decoded. -/
  | projectMalformed (path : Bytes)
  /-- The command line asks for help. -/
  | help
  /-- The command line has a flag that cannot be read. -/
  | flags (text : Bytes)
  /-- Any other reason. -/
  | other (text : Bytes)
  /-- A failure in the course of something, which is named in front of it. -/
  | during (activity : Bytes) (cause : Failure)
  /-- A failure, and one while dealing with it. -/
  | both (first second : Failure)
deriving DecidableEq, Repr

namespace Failure

/-- What is said of a JSON text that cannot be decoded. -/
def badJson : Bytes := "malformed JSON"

/-- The wording of a failure. -/
def message : Failure → Bytes
  | activation fault => fault.message
  | files fault => fault.message
  | backupMissing path => "backup file not found: " ++ path
  | resultsMissing path => "test results file not found: " ++ path
  | resultsMalformed source => 
    "could not decode test results JSON from " ++ source ++ ": " ++ badJson
  | historyMalformed path => "invalid state file " ++ path ++ ": " ++ badJson
  | historyIndex path index =>
    "invalid state file " ++ path ++ ": index " ++ Bytes.ofInt index ++ " out of range"
  | projectMalformed path => "failed to parse project file " ++ path
  | help => "help requested"
  | flags text => "invalid flags: " ++ text
  | other text => text
  | during activity cause => activity ++ ": " ++ cause.message
  | both first second => first.message ++ "\n" ++ second.message

/-- A failure, perhaps with one while dealing with it. -/
def andThen (f : Failure) : Except Failure Unit → Failure
  | .ok _ => f
  | .error second => .both f second

/-- The fault that kept the group from being activated, if that is the reason. -/
def fault? : Failure → Option Fault
  | activation fault => some fault
  | during _ cause => cause.fault?
  | both first second => first.fault?.or second.fault?
  | _ => none

end Failure

end Spotlight
