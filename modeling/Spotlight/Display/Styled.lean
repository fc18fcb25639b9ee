import Spotlight.Display.Summary
import Spotlight.Text.Width

/-!
# The styled outcome

What is shown of an outcome on a terminal, line by line in the style of its part.

* `Display.Profile` — whether the terminal shows colours;
* `Display.styled` — a text in a style; its lines are filled up to the same width;
* `Display.report` — the outcome of an operation.
-/

namespace Spotlight.Display

open Bytes

/-- What a terminal can show. -/
inductive Profile
  /-- No styles at all. -/
  | plain
  /-- Styles and 256 colours. -/
  | colors
deriving DecidableEq, Repr

/-- The styles of the outcome, by the codes of their escape sequence. -/
inductive Style
  /-- The group that was activated. -/
  | heading
  /-- Success. -/
  | success
  /-- Failure. -/
  | failure
  /-- What is less important. -/
  | faint
  /-- The wheel that turns while an operation runs. -/
  | wheel
deriving DecidableEq, Repr

/-- The codes of a style. -/
def Style.codes : Style → Bytes
  | .heading => "1;38;5;63"
  | .success => "38;5;78"
  | .failure => "38;5;197"
  | .faint => "2"
  | .wheel => "38;5;205"

/-- The text with four spaces for every tab. -/
def expandTabs (s : Bytes) : Bytes := replaceByte tab "    " s

/-- The text with a line feed for every carriage return that has one behind it. -/
def unixLines : Bytes → Bytes
  | [] => []
  | [b] => [b]
  | b :: c :: s => if b = cr && c = lf then unixLines (c :: s) else b :: unixLines (c :: s)

/-- A line in a style. -/
def Style.line (style : Style) (p : Profile) (s : Bytes) : Bytes :=
  match p with
  | .plain => s
  | .colors => "\x1b[" ++ style.codes ++ "m" ++ s ++ "\x1b[0m"

/-- The lines in a style, filled up with spaces to the widest. -/
def styledLines (style : Style) (p : Profile) (ls : List Bytes) : List Bytes :=
  let widest := (ls.map Width.ofText).foldl max 0
  ls.map fun l => style.line p l ++ List.replicate (widest - Width.ofText l) space

/-- A text in a style. -/
def styled (style : Style) (p : Profile) (s : Bytes) : Bytes :=
  joinWith [lf] (styledLines style p (splitOn lf (unixLines (expandTabs s))))

/-- A file in a list of files. -/
def fileLine (f : Bytes) : Bytes := "  " ++ expandTabs f ++ "\n"

/-- Files under a heading, if there are any. -/
def fileList (style : Style) (p : Profile) (heading : Bytes) (files : List Bytes) : Bytes :=
  if files.isEmpty then []
  else styled style p heading ++ "\n" ++ files.flatMap fileLine

/-- The outcome of an operation, without its text and lines for standard output. Those explain a
failure already, so its error is only shown where there are no such lines. -/
def report (p : Profile) (s : Summary) (error : Option Bytes) : Bytes :=
  let activated : Bytes := if s.activated.isEmpty then []
    else styled .heading p ("Activated '" ++ s.activated ++ "' in " ++ s.path) ++ "\n"
  let disabled : Bytes := if s.disabled.isEmpty then []
    else styled .faint p ("Still disabled: " ++ joinWith ", " s.disabled) ++ "\n"
  let failure : Bytes := match error with
    | some e => if s.messages.isEmpty then styled .failure p ("Error:  " ++ e) ++ "\n" else []
    | none => []
  let idle := s.output.isEmpty && s.messages.isEmpty && s.activated.isEmpty &&
    s.modified.isEmpty && s.failed.isEmpty && failure.isEmpty
  activated ++ disabled ++ fileList .success p "Modified:" s.modified ++
    fileList .failure p "Failed:" s.failed ++ failure ++
    (if idle then styled .faint p "Nothing to do." ++ "\n" else [])

end Spotlight.Display
