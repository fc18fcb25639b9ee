import Spotlight.Digest
import Spotlight.Failure
import Spotlight.Files.Access

/-!
# Copies of a file

* `Files.mode` — the permissions a file is written with;
* `Files.copy` — a copy with the same permissions;
* `Files.write` — a new content for a file;
* `Files.ensureBackup` — makes a backup unless there is one;
* `Files.restore`, `Files.restoreContent` — puts a file back.
-/

namespace Spotlight.Files

variable {m : Type → Type} [Monad m] [MonadFiles m]

/-- The result of a file operation as the result of a command. -/
def lift {α : Type} (act : m (Except Fault α)) : ExceptT Failure m α :=
  ExceptT.mk do return (← act).mapError Failure.files

/-- Names what is going on in front of a failure. -/
def during {α : Type} (activity : Bytes) (act : ExceptT Failure m α) : ExceptT Failure m α :=
  ExceptT.mk do return (← act.run).mapError (.during activity)

/-- The permissions of a file, those of a new one where it cannot be looked at. -/
def mode (path : Bytes) : m Nat := do
  match ← MonadFiles.look path with
  | .ok status => return status.mode
  | .error _ => return fileMode

/-- The digest of a file. -/
def digest (path : Bytes) : ExceptT Failure m Bytes := do
  return Digest.sha256 (← lift (MonadFiles.read path))

/-- Copies a file with its permissions. -/
def copy (source target : Bytes) : ExceptT Failure m Unit := do
  let content ← lift (MonadFiles.read source)
  let status ← lift (MonadFiles.look source)
  lift (MonadFiles.replace target content status.mode)

/-- Makes sure that there is a backup of a file, and tells whether it was made now. A backup that is
there is never written over; a missing one is made only if `create` says so. -/
def ensureBackup (path backup : Bytes) (create : Bool) : ExceptT Failure m Bool := do
  match ← (MonadFiles.look backup : m _) with
  | .ok _ => return false
  | .error fault =>
    if !fault.isMissing then throw (.files fault)
    else if !create then throw (.backupMissing backup)
    else
      during ("could not create backup " ++ backup) (copy path backup)
      return true

/-- Does a file hold a content, as far as digests tell? -/
def holds (path content : Bytes) : m Bool := do
  match ← MonadFiles.read path with
  | .ok old => return Digest.sha256 old == Digest.sha256 content
  | .error _ => return false

/-- Writes a file in one step. An old one keeps its permissions. -/
def write (path content : Bytes) : ExceptT Failure m Unit := do
  lift (MonadFiles.replace path content (← (mode path : m Nat)))

/-- Puts a content back into a file, unless the file holds it already. -/
def restoreContent (path content : Bytes) : ExceptT Failure m Unit := do
  if ← (holds path content : m Bool) then return () else write path content

/-- Puts the content of a backup into a file. The backup stays. -/
def restore (backup path : Bytes) : ExceptT Failure m Unit := do
  match ← (MonadFiles.look backup : m _) with
  | .error ⟨_, _, .missing⟩ => throw (.backupMissing backup)
  | _ => copy backup path

end Spotlight.Files
