import Spotlight.Text.Bytes

/-!
# Summaries and status lines

* `Summary` — the outcome of an operation, as it is shown;
* `Display.Level`, `Display.status` — one line about what is going on;
* `Display.output`, `Display.summary` — the outcome on standard output.

With colour, a printed text stands between an escape sequence with its codes and one that ends them.
-/

namespace Spotlight

/-- The outcome of an operation. -/
structure Summary where
  /-- The test file. -/
  path : Bytes := []
  /-- The group that was activated, if any. -/
  activated : Bytes := []
  /-- The groups that are still disabled. -/
  disabled : List Bytes := []
  /-- The files that were changed. -/
  modified : List Bytes := []
  /-- The files that could not be changed. -/
  failed : List Bytes := []
  /-- Text for standard output, as it is. -/
  output : Bytes := []
  /-- Lines for standard output, behind that text. -/
  messages : List Bytes := []
deriving DecidableEq, Repr, Inhabited

/-- The summary with one more line. -/
def Summary.add (s : Summary) (line : Bytes) : Summary := { s with messages := s.messages ++ [line] }

namespace Display

open Bytes

/-- What a status line is about. -/
inductive Level
  /-- The start of a step. -/
  | header
  /-- A remark. -/
  | info
  /-- A success. -/
  | success
  /-- Something that went wrong and can be lived with. -/
  | warning
  /-- A failure. -/
  | error
  /-- A file. -/
  | path
deriving DecidableEq, Repr

/-- The colour codes of a level. -/
def Level.codes : Level → Bytes
  | .header => "34;1"
  | .info => "36"
  | .success => "32"
  | .warning => "33"
  | .error => "31"
  | .path => "33"

/-- The text in the colour of a level. -/
def paint (color : Bool) (level : Level) (s : Bytes) : Bytes :=
  if color then "\x1b[" ++ level.codes ++ "m" ++ s ++ "\x1b[0m" else s

/-- A status line. Files are indented. -/
def status (color : Bool) (level : Level) (s : Bytes) : Bytes :=
  paint color level ((if level = .path then "  " else "") ++ s ++ "\n")

/-- The text and the lines for standard output. -/
def output (s : Summary) : Bytes := s.output ++ s.messages.flatMap (· ++ [lf])

/-- The items of a list, each on a line of its own. -/
def bullets (items : List Bytes) : Bytes := items.flatMap fun i => "  - " ++ i ++ "\n"

/-- A list under its heading, if it has items. -/
def titled (color : Bool) (level : Level) (heading : Bytes) (items : List Bytes) : Bytes :=
  if items.isEmpty then [] else paint color level heading ++ bullets items

/-- The outcome on standard output. -/
def summary (color : Bool) (s : Summary) : Bytes :=
  output s ++
  (if s.activated.isEmpty then []
    else paint color .success ("Activated '" ++ s.activated ++ "' in " ++ s.path ++ "\n")) ++
  titled color .info ("Still disabled (" ++ ofNat s.disabled.length ++ "):\n") s.disabled ++
  titled color .success ("Modified " ++ ofNat s.modified.length ++ " file(s):\n") s.modified ++
  titled color .error ("Failed to process " ++ ofNat s.failed.length ++ " file(s):\n") s.failed

end Display

end Spotlight
