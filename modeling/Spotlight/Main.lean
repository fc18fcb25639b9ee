import Spotlight.Session.Command

/-!
# The command line

The surroundings of a command are those of the machine: its files, the standard streams, the clock and
its source of random numbers. There is neither a clipboard nor an editor, and all is printed as plain
text.
-/

namespace Spotlight.Main

open Files

/-- The bytes of a text of the machine. -/
def ofArray (b : ByteArray) : Bytes := b.data.toList

/-- A text for the machine. -/
def toArray (s : Bytes) : ByteArray := ⟨s.toArray⟩

/-- Why the machine refuses an operation. -/
def reason : IO.Error → Reason
  | .noFileOrDirectory .. => .missing
  | .alreadyExists .. => .taken
  | .unsatisfiedConstraints .. => .notEmpty
  | .inappropriateType _ 20 _ => .notFolder
  | .inappropriateType _ 21 _ => .isFolder
  | .invalidArgument _ 36 _ => .tooLong
  | .invalidArgument .. => .badName
  | .permissionDenied .. => .other "permission denied"
  | e => .other (toString e)

/-- Does something with the name a path stands for. A refusal is told with what was tried. -/
def attempt {α : Type} (action : Action) (path : Bytes) (act : String → IO α) :
    IO (Except Files.Fault α) := do
  match String.fromUTF8? (toArray path) with
  | none => return .error ⟨action, path, .badName⟩
  | some name =>
    try
      return .ok (← act name)
    catch e => return .error ⟨action, path, reason e⟩

/-- What a name leads to. Permissions are taken to be the usual ones. -/
def status (name : String) : IO Status := do
  let info ← ((← IO.currentDir) / name).metadata
  return if info.type == .dir then ⟨true, folderMode⟩ else ⟨false, fileMode⟩

/-- The content of a file. -/
def content (path : Bytes) : IO (Except Files.Fault Bytes) := do
  match ← attempt .access path status with
  | .error fault => return .error fault
  | .ok info =>
    if info.isFolder then return .error ⟨.read, path, .isFolder⟩
    else attempt .access path fun name => return ofArray (← IO.FS.readBinFile name)

/-- A new unique identifier: random digits, with those of the version and the variant set. -/
def freshName : IO Bytes := do
  let hex := Bytes.toHex (ofArray (← IO.getRandomBytes 16))
  let part (i n : Nat) : Bytes := (hex.drop i).take n
  return part 0 8 ++ "-" ++ part 8 4 ++ "-4" ++ part 13 3 ++ "-a" ++ part 17 3 ++ "-" ++ part 20 12

/-- Writes a new file beside a path, and moves it there. -/
def replace (path text : Bytes) (mode : Nat) : IO (Except Files.Fault Unit) := do
  let staged := (Disk.stagePath path).dropLast ++ (← freshName)
  let written ← attempt .stage staged fun name => do
    IO.FS.writeBinFile name (toArray text)
    IO.Prim.setAccessRights name mode.toUInt32
  match written with
  | .error fault => return .error fault
  | .ok _ =>
    attempt (.move staged) path fun name => do
      let source := (String.fromUTF8? (toArray staged)).getD ""
      try IO.FS.rename source name
      catch e =>
        IO.FS.removeFile source
        throw e

/-- Makes a folder, unless it is there. -/
def makeFolder (path : Bytes) : IO (Except Files.Fault Unit) := do
  match ← attempt .make path status with
  | .ok info => return if info.isFolder then .ok () else .error ⟨.make, path, .notFolder⟩
  | .error _ => attempt .make path fun name => IO.FS.createDir name

/-- Makes folders one after the other. -/
def makeAll : List Bytes → IO (Except Files.Fault Unit)
  | [] => return .ok ()
  | p :: ps => do
    match ← makeFolder p with
    | .error fault => return .error fault
    | .ok _ => makeAll ps

/-- All that is left on a stream. -/
partial def readAll (stream : IO.FS.Stream) (sofar : ByteArray) : IO ByteArray := do
  let piece ← stream.read 65536
  if piece.isEmpty then return sofar else readAll stream (sofar ++ piece)

/-- The time: that of a file made just now. -/
def now : IO Int := do
  let (_, path) ← IO.FS.createTempFile
  let info ← path.metadata
  IO.FS.removeFile path
  return info.modified.sec

/-- Prints a text on a stream. -/
def printOn (stream : IO.FS.Stream) (text : Bytes) : IO Unit := do
  stream.write (toArray text)
  stream.flush

instance : MonadDesk IO where
  here := return Bytes.ofString (← IO.currentDir).toString
  look path := attempt .look path status
  read path := content path
  overwrite path text := attempt .access path fun name => IO.FS.writeBinFile name (toArray text)
  replace path text mode := replace path text mode
  makeFolders path := do
    let here := Bytes.ofString (← IO.currentDir).toString
    makeAll (Repository.enclosing (Path.components (Path.absolute here path))).reverse
  remove path := attempt .remove path fun name => do
    if (← status name).isFolder then IO.FS.removeDir name else IO.FS.removeFile name
  say level line := do printOn (← IO.getStderr) (Display.status false level line)
  print text := do printOn (← IO.getStdout) text
  complain text := do printOn (← IO.getStderr) text
  input := return ofArray (← readAll (← IO.getStdin) ByteArray.empty)
  clip _ := return .error Desk.noClipboard
  edit _ _ := return .error Desk.noEditor
  freshName := freshName
  now := now

end Spotlight.Main

/-- Runs a command line. -/
def main (args : List String) : IO UInt32 :=
  Spotlight.Command.run (args.map Spotlight.Bytes.ofString)
