import Spotlight.Text.Bytes

/-!
# Writing through an editor

A file that is open in an editor is replaced through it: the buffer gets the new lines and is
written. Lines hold no line feeds; a separate setting says whether the last line has one behind it.

* `Editor.lines` — the lines of a content;
* `Editor.endsLine` — has its last line an end?
* `Editor.Call`, `Editor.batch` — the calls that write a file.
-/

namespace Spotlight.Editor

open Bytes

/-- Has the last line of the content a line end? -/
def endsLine (content : Bytes) : Bool := content.getLast? == some lf

/-- The lines of a content. A line end at its end starts no further line. -/
def lines (content : Bytes) : List Bytes :=
  splitOn lf (if endsLine content then content.dropLast else content)

/-- A call of the editor. -/
inductive Call
  /-- A command. -/
  | command (text : Bytes)
  /-- New lines for the whole buffer. -/
  | setLines (lines : List Bytes)
deriving DecidableEq, Repr

/-- The calls that write a file, whose path is given with its special characters escaped. -/
def batch (escaped content : Bytes) : List Call :=
  [.command ("edit! " ++ escaped),
   .setLines (lines content),
   .command (if endsLine content then "setlocal endofline fixendofline"
     else "setlocal noendofline nofixendofline"),
   .command "write"]

/-- What is said when the editor cannot escape a path. -/
def escapeFailed (path reason : Bytes) : Bytes := "failed to escape " ++ path ++ ": " ++ reason

/-- What is said when the editor cannot write a file. -/
def updateFailed (path reason : Bytes) : Bytes :=
  "failed to update buffer for " ++ path ++ ": " ++ reason

end Spotlight.Editor
