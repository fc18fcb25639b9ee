import Spotlight.Display.Summary
import Spotlight.Files.Backup

/-!
# The surroundings of a command

Besides files, a command sees its standard streams, and uses the clipboard, an editor, the clock and
fresh names.

* `MonadDesk` — access to all of these;
* `Desk` — surroundings as a value, without a clipboard and without an editor;
* `Source.content` — what a path given by the user stands for.
-/

namespace Spotlight

open Files

/-- Access to the surroundings of a command. -/
class MonadDesk (m : Type → Type) extends MonadFiles m where
  /-- Prints a status line. -/
  say : Display.Level → Bytes → m Unit
  /-- Prints a text on standard output. -/
  print : Bytes → m Unit
  /-- Prints a text on standard error. -/
  complain : Bytes → m Unit
  /-- What is left of the standard input. -/
  input : m Bytes
  /-- Puts a text on the clipboard. -/
  clip : Bytes → m (Except Failure Unit)
  /-- Writes a file through an editor. -/
  edit : Bytes → Bytes → m (Except Failure Unit)
  /-- A name that was never given before. -/
  freshName : m Bytes
  /-- The time in seconds since 1970. -/
  now : m Int

/-- The name that is given after `n` others: a number in the form of a unique identifier. -/
def Desk.nameAfter (n : Nat) : Bytes := "00000000-0000-4000-8000-" ++ Bytes.hexPadded 12 n

/-- The surroundings of a command as a value. -/
structure Desk where
  /-- The files. -/
  disk : Disk := {}
  /-- What is left of the standard input. -/
  input : Bytes := []
  /-- What was printed on standard output so far. -/
  output : Bytes := []
  /-- What was printed on standard error so far. -/
  errors : Bytes := []
  /-- The names to give, one after the other. -/
  names : Nat → Bytes := Desk.nameAfter
  /-- How many names were given. -/
  named : Nat := 0
  /-- The time. -/
  now : Int := 0
  /-- The changes to the files that were refused so far. -/
  refused : List Files.Fault := []
deriving Inhabited

namespace Desk

/-- What a missing clipboard says. -/
def noClipboard : Failure := .other "clipboard is not supported on this system"

/-- What a missing editor says. -/
def noEditor : Failure :=
  .other "failed to start headless nvim: exec: \"nvim\": executable file not found in $PATH. Is 'nvim' in your PATH?"

/-- Asks something about the files. -/
def ask {α : Type} (question : Disk → α) : StateM Desk α := fun d => (question d.disk, d)

/-- Changes the files, or takes down that it was refused. -/
def change (act : Disk → Except Files.Fault Disk) : StateM Desk (Except Files.Fault Unit) := fun d =>
  match act d.disk with
  | .ok disk => (.ok (), { d with disk := disk })
  | .error fault => (.error fault, { d with refused := d.refused ++ [fault] })

instance : MonadDesk (StateM Desk) where
  here := ask (·.herePath)
  look path := ask (·.look path)
  read path := ask (·.read path)
  overwrite path content := change (·.overwrite path content)
  replace path content mode := change (·.replace path content mode)
  makeFolders path := change (·.makeFolders path)
  remove path := change (·.remove path)
  say level line := fun d => ((), { d with errors := d.errors ++ Display.status false level line })
  print text := fun d => ((), { d with output := d.output ++ text })
  complain text := fun d => ((), { d with errors := d.errors ++ text })
  input := fun d => (d.input, { d with input := [] })
  clip _ := fun d => (.error noClipboard, d)
  edit _ _ := fun d => (.error noEditor, d)
  freshName := fun d => (d.names d.named, { d with named := d.named + 1 })
  now := fun d => (d.now, d)

end Desk

namespace Source

variable {m : Type → Type} [Monad m] [MonadDesk m]

/-- The path that stands for the standard input. -/
def stdin : Bytes := "-"

/-- The content of a file, or what is left of the standard input. -/
def content (path : Bytes) : ExceptT Failure m Bytes :=
  if path = stdin then ExceptT.lift MonadDesk.input else lift (MonadFiles.read path)

end Source

end Spotlight
