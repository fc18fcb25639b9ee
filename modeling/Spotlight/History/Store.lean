import Spotlight.Files.Backup
import Spotlight.History.Timeline

/-!
# The history on disk

A history lives in a folder of its own: a file with the timeline, and a folder of snapshots, each the
content of a file before one activation.

* `History.Store` — the folder and the timeline that was loaded from it;
* `Store.load` — opens the history of a project;
* `Store.record` — one more activation, with its snapshot;
* `Store.undo`, `Store.redo` — one step back or forth, told by the activation it is about;
* `Store.rewind`, `Store.advance` — the same steps, when the work that goes with them failed;
* `Store.snapshot` — the content of a file before an activation.

The timeline in memory moves on even when it cannot be saved.
-/

namespace Spotlight.History

open Files

/-- A history that was loaded. -/
structure Store where
  /-- The folder it lives in. -/
  folder : Bytes
  /-- The timeline. -/
  timeline : Timeline
deriving Inhabited

namespace Store

variable {m : Type → Type} [Monad m] [MonadFiles m]

/-- The name of the folder of a history. -/
def folderName : Bytes := ".focus"

/-- The folder of the history of a project. -/
def folderOf (project : Bytes) : Bytes := Path.join project folderName

/-- The file with the timeline, by the folder of the history. -/
def fileIn (folder : Bytes) : Bytes := Path.join folder "state.json"

/-- The folder of the snapshots. -/
def snapshotFolder (s : Store) : Bytes := Path.join s.folder "snapshots"

/-- The snapshot of an activation. -/
def snapshotPath (s : Store) (id : Bytes) : Bytes := Path.clean (s.snapshotFolder ++ Bytes.slash :: id)

/-- The timeline in a file. A file that is missing or empty holds the empty one. -/
def loadTimeline (file : Bytes) : ExceptT Failure m Timeline := do
  match ← (MonadFiles.read file : m _) with
  | .error fault => if fault.isMissing then return .empty else throw (.files fault)
  | .ok [] => return .empty
  | .ok text =>
    match Timeline.parse text with
    | none => throw (.historyMalformed file)
    | some stored =>
      match Timeline.ofStored? stored with
      | none => throw (.historyIndex file stored.2)
      | some t => return t

/-- Opens the history of a project. Its folder is made if it is missing. -/
def load (project : Bytes) : ExceptT Failure m Store := do
  let folder := folderOf project
  during "could not create state directory" (lift (MonadFiles.makeFolders folder))
  return ⟨folder, ← loadTimeline (fileIn folder)⟩

/-- Writes the timeline to its file. -/
def save (s : Store) : ExceptT Failure m Unit :=
  lift (MonadFiles.overwrite (fileIn s.folder) s.timeline.text)

/-- The history with another timeline, which is saved, and whether it could be. -/
def move (s : Store) (t : Timeline) : m (Store × Except Failure Unit) := do
  let s := { s with timeline := t }
  return (s, ← s.save.run)

/-- Removes the snapshots of some activations, as far as they are there. -/
def removeSnapshots (s : Store) : List Entry → m Unit
  | [] => return ()
  | e :: es => do
    let _ ← MonadFiles.remove (s.snapshotPath e.id)
    s.removeSnapshots es

/-- Drops the undone activations and their snapshots. -/
def dropUndone (s : Store) : m Store := do
  s.removeSnapshots s.timeline.undone
  return { s with timeline := s.timeline.dropUndone }

/-- Writes the snapshot of an activation. -/
def writeSnapshot (s : Store) (id before : Bytes) : ExceptT Failure m Unit := do
  during "could not create snapshot directory" (lift (MonadFiles.makeFolders s.snapshotFolder))
  during "could not write snapshot" (lift (MonadFiles.overwrite (s.snapshotPath id) before))

/-- Records an activation of a file that held `before`. The undone activations are dropped first. -/
def record (s : Store) (e : Entry) (before : Bytes) : m (Store × Except Failure Unit) := do
  let s ← s.dropUndone
  match ← (s.writeSnapshot e.id before).run with
  | .error failure => return (s, .error failure)
  | .ok _ => s.move (s.timeline.record e)

/-- Goes one activation back. There may be none. -/
def undo (s : Store) : m (Store × Except Failure (Option Entry)) := do
  match s.timeline.undo? with
  | none => return (s, .ok none)
  | some (e, t) =>
    let (s, r) ← s.move t
    return (s, r.map fun _ => some e)

/-- Goes one activation forth. There may be none. -/
def redo (s : Store) : m (Store × Except Failure (Option Entry)) := do
  match s.timeline.redo? with
  | none => return (s, .ok none)
  | some (e, t) =>
    let (s, r) ← s.move t
    return (s, r.map fun _ => some e)

/-- Goes one activation back when repeating it failed. -/
def rewind (s : Store) : m (Store × Except Failure Unit) :=
  match s.timeline.undo? with
  | none => return (s, .ok ())
  | some (_, t) => s.move t

/-- Goes one activation forth when undoing it failed. -/
def advance (s : Store) : m (Store × Except Failure Unit) :=
  match s.timeline.redo? with
  | none => return (s, .ok ())
  | some (_, t) => s.move t

/-- The content of a file before an activation. -/
def snapshot (s : Store) (e : Entry) : ExceptT Failure m Bytes :=
  during ("could not read snapshot for " ++ e.path)
    (lift (MonadFiles.read (s.snapshotPath e.id)))

end Store

end Spotlight.History
