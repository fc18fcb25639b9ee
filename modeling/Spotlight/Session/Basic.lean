import Spotlight.Activation
import Spotlight.Files.Lookup
import Spotlight.Files.Repository
import Spotlight.History.Store
import Spotlight.Session.Desk
import Spotlight.Settings.Basic

/-!
# A session

A session is one run of a command in a project: its settings, the history of the project, and the way
files are written.

* `Session.Outcome` — what a command comes to: a summary, and perhaps a failure;
* `Session.Writer` — a way to write files;
* `Session.start` — opens the history of the project around the working folder;
* `Session.target`, `Session.readTarget` — the test file and its content;
* `Session.diagnostic` — one line about a failure.
-/

namespace Spotlight

open Files

namespace Session

/-- What a command comes to. -/
structure Outcome where
  /-- What is shown of it. -/
  summary : Summary := {}
  /-- Why it failed, if it did. -/
  failure : Option Failure := none
deriving DecidableEq, Repr, Inhabited

/-- The search for a group broke down. Nothing is put back then, and nothing is shown. -/
def Outcome.crash : Outcome := ⟨{}, some (.activation .malformedName)⟩

/-- A failure, with the file listed as one that could not be changed. -/
def Outcome.failed (summary : Summary) (failure : Failure) : Outcome :=
  ⟨{ summary with failed := summary.failed ++ [summary.path] }, some failure⟩

/-- A way to write files. It is given a path and a content. -/
abbrev Writer (m : Type → Type) := Bytes → Bytes → ExceptT Failure m Unit

end Session

/-- One run of a command in a project. -/
structure Session (m : Type → Type) where
  /-- What the command is to do. -/
  settings : Settings
  /-- The history of the project. -/
  store : History.Store
  /-- The way files are written. -/
  write : Session.Writer m

namespace Session

variable {m : Type → Type} [Monad m] [MonadDesk m]

/-- The way files are written by the settings: in one step, or through an editor. -/
def defaultWriter (s : Settings) : Writer m := fun path content =>
  if s.nvim then ExceptT.mk (MonadDesk.edit path content) else Files.write path content

/-- Opens the history of the project around the working folder, or of the working folder itself. -/
def openHistory : ExceptT Failure m History.Store := do
  let here ← (MonadFiles.here : m Bytes)
  let root ← (Repository.root? here : m (Option Bytes))
  during "failed to initialize state manager" (History.Store.load (root.getD here))

/-- Starts a session. -/
def start (s : Settings) : ExceptT Failure m (Session m) := do
  return ⟨s, ← openHistory, defaultWriter s⟩

/-- A path as it is shown: seen from the working folder, if that is possible. -/
def relativize (path : Bytes) : m Bytes := do
  return (Path.relative? (← MonadFiles.here) path).getD path

/-- The test file. -/
def target (a : Session m) : m Bytes := do
  Lookup.resolve (← Lookup.folders a.settings.lookupDirs) a.settings.file

/-- The content of a test file. -/
def readTarget (path : Bytes) : ExceptT Failure m Bytes :=
  during "failed to read test file" (lift (MonadFiles.read path))

/-- One line about a failure. -/
def diagnostic (a : Session m) (failure : Failure) : Bytes :=
  let group : Bytes := "'" ++ a.settings.name ++ "' " ++ a.settings.keyword ++
    " block within the main comment block."
  match failure.fault? with
  | some (.regionNotFound ..) => "Could not find the main comment block pattern."
  | some (.ambiguousRegion _) => "Found more than one main comment block pattern."
  | some (.groupNotFound ..) => "Could not find the " ++ group
  | some (.ambiguousGroup ..) => "Found more than one " ++ group
  | some (.unbalancedGroup ..) | some (.unclosedCall ..) => "Could not find the end of the " ++ group
  | _ => "Failed to update " ++ a.settings.file ++ ": " ++ failure.message

end Session

end Spotlight
