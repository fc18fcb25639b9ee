import Spotlight.Files.Disk

/-!
# Access to files

What reads and writes files does so in a monad that gives access to them, so that it runs on the
files of a machine as well as on a `Disk`.

* `Files.MonadFiles` — the operations;
* the instance for programs whose state is a `Disk`.
-/

namespace Spotlight.Files

/-- Access to files. Paths that do not start at the root start in the working folder. -/
class MonadFiles (m : Type → Type) where
  /-- The path of the working folder. -/
  here : m Bytes
  /-- Looks what a path leads to. -/
  look : Bytes → m (Except Fault Status)
  /-- The content of a file. -/
  read : Bytes → m (Except Fault Bytes)
  /-- Writes a file in place: an old one keeps its permissions. -/
  overwrite : Bytes → Bytes → m (Except Fault Unit)
  /-- Writes a new file with these permissions and moves it to a path in one step. -/
  replace : Bytes → Bytes → Nat → m (Except Fault Unit)
  /-- Makes a folder and those it lies in. -/
  makeFolders : Bytes → m (Except Fault Unit)
  /-- Removes a file or an empty folder. -/
  remove : Bytes → m (Except Fault Unit)

/-- The disk after an operation, unless it was refused. -/
def Disk.after (d : Disk) : Except Fault Disk → Except Fault Unit × Disk
  | .ok d => (.ok (), d)
  | .error f => (.error f, d)

instance : MonadFiles (StateM Disk) where
  here := fun d => (d.herePath, d)
  look path := fun d => (d.look path, d)
  read path := fun d => (d.read path, d)
  overwrite path content := fun d => d.after (d.overwrite path content)
  replace path content mode := fun d => d.after (d.replace path content mode)
  makeFolders path := fun d => d.after (d.makeFolders path)
  remove path := fun d => d.after (d.remove path)

end Spotlight.Files
