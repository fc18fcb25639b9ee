import Spotlight.Session.Activate
import Spotlight.Session.Review
import Spotlight.Session.Travel
import Spotlight.Settings.Project

/-!
# Commands

* `Session.perform`, `Session.execute` — does what the settings ask for;
* `Request`, `Request.activate` — an activation for callers that have no command line;
* `Command.run` — a whole command line, and its exit code.
-/

namespace Spotlight

variable {m : Type → Type} [Monad m] [MonadDesk m]

/-- Does what the settings ask for, and gives the history as it is then. -/
def Session.perform (a : Session m) : m (History.Store × Session.Outcome) :=
  let s := a.settings
  if s.undo then a.undo
  else if s.redo then a.redo
  else if !s.report.isEmpty then return (a.store, ← a.review)
  else if s.list then return (a.store, ← a.listGroups)
  else if s.dryRun then return (a.store, ← a.dryRun)
  else a.activate

/-- Does what the settings ask for. -/
def Session.execute (a : Session m) : m Session.Outcome := return (← a.perform).2

/-- What to activate, for callers that have no command line. Empty texts stand for the defaults. -/
structure Request where
  /-- The test file. -/
  file : Bytes := []
  /-- The backup. -/
  backup : Bytes := []
  /-- The group to activate. -/
  name : Bytes := []
  /-- The group behind the disabled region. -/
  anchor : Bytes := []
  /-- How the end of the group is found. -/
  scan : Bytes := []

namespace Request

/-- The settings of a request. -/
def settings (r : Request) : Settings :=
  let s : Settings := {}
  let pick (new old : Bytes) : Bytes := if new.isEmpty then old else new
  { s with
    file := pick r.file s.file, backup := r.backup, name := pick r.name s.name
    anchor := pick r.anchor s.anchor, scan := pick r.scan s.scan }

/-- Activates a group on request. -/
def activate (r : Request) : m Session.Outcome := do
  match r.settings.options.check with
  | .error fault => return ⟨{}, some (.activation fault)⟩
  | .ok _ =>
    match ← (Session.start r.settings).run with
    | .error failure =>
      return ⟨{}, some (.during "failed to initialize focus app" failure)⟩
    | .ok session => return (← session.activate).2

end Request

namespace Command

/-- Tells a failure on standard error. Where lines of a summary told it, nothing more is said; a
breakdown has its own heading. -/
def tell (summary : Summary) (failure : Failure) : m Unit := do
  if failure.fault? = some .malformedName then
    MonadDesk.complain "\n--- Stack Trace ---\n\n"
  if summary.messages.isEmpty then MonadDesk.complain ("Error: " ++ failure.message ++ "\n")

/-- Prints what a command came to, and gives its exit code. -/
def finish (o : Session.Outcome) : m UInt32 := do
  MonadDesk.print (Display.summary false o.summary)
  match o.failure with
  | none => return 0
  | some failure =>
    tell o.summary failure
    return 1

/-- Tells why a command line cannot be used, and gives the exit code. Help is no failure, and nothing is
said of flags that cannot be read. -/
def reject : Failure → m UInt32
  | .help => do
    MonadDesk.print Flags.usage
    MonadDesk.complain Flags.table
    return 0
  | .flags _ => return 1
  | failure => do
    MonadDesk.complain ("Error: " ++ failure.message ++ "\n")
    return 1

/-- Runs a command line, and gives its exit code. -/
def run (args : List Bytes) : m UInt32 := do
  match ← (Settings.ofArgs args).run with
  | .error failure => reject failure
  | .ok settings =>
    match ← (Session.start settings).run with
    | .error failure =>
      MonadDesk.complain ("Failed to initialize application: " ++ failure.message ++ "\n")
      return 1
    | .ok session => finish (← session.execute)

end Command

end Spotlight
