import Spotlight.Files.Access

/-!
# Looking a file up

A path is looked up in a list of folders.

* `Lookup.folders` — the folders, as absolute paths;
* `Lookup.existing?` — the first file that is there;
* `Lookup.resolve` — that file, or where it would be in the first folder.
-/

namespace Spotlight.Lookup

open Files

variable {m : Type → Type} [Monad m] [MonadFiles m]

/-- The folders to look in, the working folder if none are given. -/
def folders (dirs : List Bytes) : m (List Bytes) := do
  let here ← MonadFiles.here
  return if dirs.isEmpty then [here] else dirs.map (Path.absolute here)

/-- The first of some paths that leads somewhere. -/
def firstExisting? : List Bytes → m (Option Bytes)
  | [] => return none
  | p :: ps => do
    match ← MonadFiles.look p with
    | .ok _ => return some p
    | .error _ => firstExisting? ps

/-- The absolute path of the first file that is there. -/
def existing? (folders : List Bytes) (path : Bytes) : m (Option Bytes) :=
  firstExisting? (if Path.isAbsolute path then [path] else folders.map (Path.join · path))

/-- The absolute path of a file, in the first folder if it is nowhere. An absolute path stays as it
is. -/
def resolve (folders : List Bytes) (path : Bytes) : m Bytes := do
  if Path.isAbsolute path then return path
  else return (← existing? folders path).getD (Path.join (folders.headD []) path)

end Spotlight.Lookup
