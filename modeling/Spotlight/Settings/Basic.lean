import Spotlight.Failure
import Spotlight.Text.Quoted

/-!
# The settings of a command

* `Settings` — what a command is to do, with its defaults;
* `Settings.options` — the part that drives an activation;
* `Settings.backupPath` — where the backup of a file lies;
* `Settings.check` — do the settings make sense together?
-/

namespace Spotlight

/-- What a command is to do. -/
structure Settings extends Options where
  /-- The test file. -/
  file : Bytes := "lib/bigint.test.js"
  /-- The backup, empty for the one beside the file. -/
  backup : Bytes := []
  /-- Is a file restored from its backup when an activation fails? -/
  restoreBackup : Bool := false
  /-- The folders to look for the test file in. -/
  lookupDirs : List Bytes := []
  /-- Is the change only shown? -/
  dryRun : Bool := false
  /-- Are the groups of the disabled region listed? -/
  list : Bool := false
  /-- Are files written through an editor? -/
  nvim : Bool := false
  /-- Is the last activation undone? -/
  undo : Bool := false
  /-- Is the last undone activation repeated? -/
  redo : Bool := false
  /-- The results file to report on, empty for none. -/
  report : Bytes := []
  /-- The file the report is saved to, empty for standard output. -/
  reportOut : Bytes := []
  /-- The format of the report. -/
  format : Bytes := "text"
  /-- Is the report copied to the clipboard? -/
  copy : Bool := false
  /-- Is the terminal used like a plain file? -/
  noAnimation : Bool := false
  /-- The project file, empty for the usual one. -/
  config : Bytes := []
deriving DecidableEq, Repr, Inhabited

namespace Settings

/-- The texts that drive an activation. -/
def options (s : Settings) : Options := s.toOptions

/-- Where the backup of a file lies: the one given, or the one beside the file. -/
def backupPath (s : Settings) (target : Bytes) : Bytes :=
  if s.backup.isEmpty then target ++ ".backup" else s.backup

/-- How many of the special modes are asked for. -/
def modes (s : Settings) : Nat :=
  ([s.undo || s.redo, s.dryRun, s.list, !s.report.isEmpty].filter id).length

/-- Is the format of the report a known one? -/
def hasKnownFormat (s : Settings) : Bool :=
  s.format == Bytes.ofString "text" || s.format == Bytes.ofString "markdown" ||
    s.format == Bytes.ofString "html"

/-- Refuses settings that make no sense together. The texts of an activation do not matter for a
report. -/
def check (s : Settings) : Except Failure Unit :=
  if s.undo && s.redo then .error (.other "error: --undo and --redo are mutually exclusive")
  else if 1 < s.modes then
    .error (.other
      "error: --undo/--redo, --dry-run, --list and --report are mutually exclusive")
  else if !s.reportOut.isEmpty && s.report.isEmpty then
    .error (.other "error: --report-out requires --report")
  else if s.file.isEmpty then .error (.other "error: --file is empty")
  else if !s.hasKnownFormat then
    .error (.other ("error: unknown --format " ++ Quoted.text s.format))
  else if s.report.isEmpty then
    s.options.check.mapError fun fault => .during "error" (.activation fault)
  else .ok ()

end Settings

end Spotlight
