import Spotlight.Text.Bytes

/-!
# Why a file operation is refused

* `Files.Reason` — what stands in the way, in the words of the operating system;
* `Files.Action` — what was tried;
* `Files.Fault` — a refused operation, and `Files.Fault.message` its wording.
-/

namespace Spotlight.Files

/-- What stands in the way of a file operation. -/
inductive Reason
  /-- There is nothing of that name. -/
  | missing
  /-- A file stands where a folder is needed. -/
  | notFolder
  /-- A folder stands where a file is needed. -/
  | isFolder
  /-- The name is taken. -/
  | taken
  /-- The folder still holds something. -/
  | notEmpty
  /-- The name is longer than a name may be. -/
  | tooLong
  /-- The name holds a byte that no name may hold. -/
  | badName
  /-- Another reason, in the words of the operating system. -/
  | other (text : Bytes)
deriving DecidableEq, Repr

/-- The wording of a reason. -/
def Reason.text : Reason → Bytes
  | missing => "no such file or directory"
  | notFolder => "not a directory"
  | isFolder => "is a directory"
  | taken => "file exists"
  | notEmpty => "directory not empty"
  | tooLong => "file name too long"
  | badName => "invalid argument"
  | other text => text

/-- What is done with a path. -/
inductive Action
  /-- Looking what it leads to. -/
  | look
  /-- Opening a file. -/
  | access
  /-- Reading an open file. -/
  | read
  /-- Making a folder. -/
  | make
  /-- Removing what it leads to. -/
  | remove
  /-- Opening a new file that is to take the place of another. -/
  | stage
  /-- Moving a file there. -/
  | move (source : Bytes)
deriving DecidableEq, Repr

/-- How a message names an action, up to the path. -/
def Action.text : Action → Bytes
  | look => "stat "
  | access => "open "
  | read => "read "
  | make => "mkdir "
  | remove => "remove "
  | stage => "failed to create temp file: open "
  | move source => "rename " ++ source ++ " "

/-- A refused operation. -/
structure Fault where
  /-- What was tried. -/
  action : Action
  /-- The path it was tried on, as it was given. -/
  path : Bytes
  /-- Why it was refused. -/
  reason : Reason
deriving DecidableEq, Repr

/-- The wording of a refusal. -/
def Fault.message (f : Fault) : Bytes := f.action.text ++ f.path ++ ": " ++ f.reason.text

/-- Was there nothing at the path? -/
def Fault.isMissing (f : Fault) : Bool := f.reason == .missing

end Spotlight.Files
