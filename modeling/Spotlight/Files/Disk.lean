import Spotlight.Files.Fault
import Spotlight.Files.Path

/-!
# The files of a disk

A disk holds files and folders at places; a place is the list of names that leads there from the root.
Relative paths start in the working folder.

* `Files.Entry` — a file or a folder, with its permissions;
* `Files.Disk`, `Disk.get?`, `Disk.set`, `Disk.erase` — what stands at which place;
* `Disk.locate` — the place a path leads to;
* `Disk.read`, `Disk.overwrite`, `Disk.replace`, `Disk.makeFolders`, `Disk.remove` — the
  operations on paths. A refused one changes nothing.
-/

namespace Spotlight.Files

open Bytes

/-- A place on a disk: the names on the way from the root. -/
abbrev Place := List Bytes

/-- What stands at a place. Permissions are the nine bits of a mode. -/
inductive Entry
  /-- A file. -/
  | file (mode : Nat) (content : Bytes)
  /-- A folder. -/
  | folder (mode : Nat)
deriving DecidableEq, Repr

/-- What is told of an entry without opening it. -/
structure Status where
  /-- Is it a folder? -/
  isFolder : Bool
  /-- Its permissions. -/
  mode : Nat
deriving DecidableEq, Repr

/-- What is told of an entry. -/
def Entry.status : Entry → Status
  | file mode _ => ⟨false, mode⟩
  | folder mode => ⟨true, mode⟩

/-- The permissions of a new file. -/
def fileMode : Nat := 0o644

/-- The permissions of a new folder. -/
def folderMode : Nat := 0o755

/-- The files and folders of a disk, and the working folder. -/
structure Disk where
  /-- What stands where. The root is a folder without being listed. -/
  entries : List (Place × Entry) := []
  /-- The working folder. -/
  here : Place := []
deriving DecidableEq, Repr, Inhabited

namespace Disk

/-! ### Places -/

/-- What stands at a place. -/
def get? (d : Disk) (p : Place) : Option Entry :=
  if p.isEmpty then some (.folder folderMode) else d.entries.lookup p

/-- The disk with an entry at a place. -/
def set (d : Disk) (p : Place) (e : Entry) : Disk :=
  { d with entries := (p, e) :: d.entries.filter (·.1 != p) }

/-- The disk without what stands at a place. -/
def erase (d : Disk) (p : Place) : Disk := { d with entries := d.entries.filter (·.1 != p) }

/-- Does anything stand below a place? -/
def hasBelow (d : Disk) (p : Place) : Bool :=
  d.entries.any fun (q, _) => p.length < q.length && q.take p.length == p

/-- Walks on from a place by the components of a path. Every step needs a folder to start from. -/
def walk (d : Disk) : List Bytes → Place → Except Reason Place
  | [], p => .ok p
  | c :: cs, p =>
    match d.get? p with
    | none => .error .missing
    | some (.file ..) => .error .notFolder
    | some (.folder _) =>
      if c.isEmpty || c = Path.dot then walk d cs p
      else if c = Path.dotdot then walk d cs p.dropLast
      else if 255 < c.length then .error .tooLong
      else walk d cs (p ++ [c])

/-- The place a path leads to. All but its last component must be there. -/
def locate (d : Disk) (path : Bytes) : Except Reason Place :=
  if List.contains path 0 then .error .badName
  else if path.isEmpty then .error .missing
  else if 4096 ≤ path.length then .error .tooLong
  else d.walk (splitOn slash path) (if Path.isAbsolute path then [] else d.here)

/-- What stands where a path leads. -/
def find (d : Disk) (path : Bytes) : Except Reason Entry := do
  match d.get? (← d.locate path) with
  | some e => .ok e
  | none => .error .missing

/-- The working folder as a path. -/
def herePath (d : Disk) : Bytes := Path.ofComponents true d.here

/-! ### Operations on paths -/

/-- Looks what a path leads to. -/
def look (d : Disk) (path : Bytes) : Except Fault Status :=
  match d.find path with
  | .ok e => .ok e.status
  | .error r => .error ⟨.look, path, r⟩

/-- The content of a file. -/
def read (d : Disk) (path : Bytes) : Except Fault Bytes :=
  match d.find path with
  | .ok (.file _ content) => .ok content
  | .ok (.folder _) => .error ⟨.read, path, .isFolder⟩
  | .error r => .error ⟨.access, path, r⟩

/-- The place where a file can be written. A path with a slash at its end names a folder. -/
def slot (d : Disk) (path : Bytes) : Except Reason Place := do
  let p ← d.locate (match trimEnd slash path with | [] => path | path => path)
  match d.get? p with
  | some (.folder _) => .error .isFolder
  | some (.file ..) => if path.getLast? = some slash then .error .notFolder else .ok p
  | none => if path.getLast? = some slash then .error .isFolder else .ok p

/-- Writes a file in place: an old one keeps its permissions. -/
def overwrite (d : Disk) (path content : Bytes) : Except Fault Disk :=
  match d.slot path with
  | .error r => .error ⟨.access, path, r⟩
  | .ok p =>
    let mode := match d.get? p with
      | some e => e.status.mode
      | none => fileMode
    .ok (d.set p (.file mode content))

/-- The path of the new file that is to take the place of another, beside it. -/
def stagePath (path : Bytes) : Bytes :=
  let dir := Path.parent path
  (if dir.getLast? = some slash then dir else dir ++ [slash]) ++
    "." ++ Path.base path ++ ".focus-N"

/-- Writes a new file beside a path and moves it there in one step. -/
def replace (d : Disk) (path content : Bytes) (mode : Nat) : Except Fault Disk :=
  let staged := stagePath path
  match d.locate staged with
  | .error r => .error ⟨.stage, staged, r⟩
  | .ok _ =>
    match d.locate path with
    | .error r => .error ⟨.move staged, path, r⟩
    | .ok p =>
      match d.get? p with
      | some (.folder _) => .error ⟨.move staged, path, .taken⟩
      | _ => .ok (d.set p (.file mode content))

/-- Makes the folders on the way on from a place. -/
def makeOnWay (d : Disk) : List Bytes → Place → Except Fault Disk
  | [], _ => .ok d
  | c :: cs, p =>
    let p := p ++ [c]
    match d.get? p with
    | some (.file ..) => .error ⟨.make, Path.ofComponents true p, .notFolder⟩
    | some (.folder _) => makeOnWay d cs p
    | none =>
      if 255 < c.length then .error ⟨.make, Path.ofComponents true p, .tooLong⟩
      else makeOnWay (d.set p (.folder folderMode)) cs p

/-- Makes a folder and those it lies in. -/
def makeFolders (d : Disk) (path : Bytes) : Except Fault Disk :=
  d.makeOnWay (Path.components (Path.absolute d.herePath path)) []

/-- Removes a file or an empty folder. -/
def remove (d : Disk) (path : Bytes) : Except Fault Disk :=
  match d.locate path with
  | .error r => .error ⟨.remove, path, r⟩
  | .ok p =>
    match d.get? p with
    | none => .error ⟨.remove, path, .missing⟩
    | some (.file ..) => .ok (d.erase p)
    | some (.folder _) =>
      if d.hasBelow p then .error ⟨.remove, path, .notEmpty⟩ else .ok (d.erase p)

end Disk

end Spotlight.Files
