import Spotlight.Files.Access

/-!
# The project around a folder

A project is a folder under version control. It is looked for upwards from a folder, and the nearest
control folder ends the search, whether it can be used or not.

* `Repository.isUsable` — does a control folder hold a repository?
* `Repository.root?` — the project around a folder.
-/

namespace Spotlight.Repository

open Files Bytes

variable {m : Type → Type} [Monad m] [MonadFiles m]

/-- The name of a control folder. -/
def controlName : Bytes := ".git"

/-- Can the control folder be used? It needs a head that is not empty. -/
def isUsable (control : Bytes) : m Bool := do
  match ← MonadFiles.read (Path.join control "HEAD") with
  | .ok head => return !head.isEmpty
  | .error _ => return false

/-- The control folder a file in its place points to. -/
def pointed? (folder text : Bytes) : Option Bytes := do
  let rest ← strip? "gitdir: " text
  let line := (splitOn lf rest).headD []
  let isSpace (b : UInt8) := b == space || b == tab || b == cr
  let target := ((line.dropWhile isSpace).reverse.dropWhile isSpace).reverse
  return Path.absolute folder target

/-- The control folder of a folder that has one, where it is used. -/
def control? (folder : Bytes) (status : Status) : m (Option Bytes) := do
  let path := Path.join folder controlName
  if status.isFolder then return some path
  match ← MonadFiles.read path with
  | .ok text => return pointed? folder text
  | .error _ => return none

/-- The first of some folders that has a control folder, if that can be used. -/
def firstUsable? : List Bytes → m (Option Bytes)
  | [] => return none
  | folder :: above => do
    match ← MonadFiles.look (Path.join folder controlName) with
    | .error fault => if fault.isMissing then firstUsable? above else return none
    | .ok status =>
      match ← control? folder status with
      | none => return none
      | some control => return if ← isUsable control then some folder else none

/-- A folder and those it lies in, from the inside out, by their components. -/
def enclosing (components : List Bytes) : List Bytes :=
  (List.range (components.length + 1)).reverse.map fun n => Path.ofComponents true (components.take n)

/-- The project around a folder. -/
def root? (folder : Bytes) : m (Option Bytes) := firstUsable? (enclosing (Path.components folder))

end Spotlight.Repository
