import Spotlight.Files.Access
import Spotlight.Proofs.Files.Disk

/-!
# Disks on which changes go wrong

On a `Disk` a change takes place or is refused. A machine may also break a change off, and leave half of it behind.

* `Files.Mishap`, `Files.Frail` — how a change goes wrong, and a disk on which some changes will;
* the instance for programs whose state is a frail disk;
* `Files.Disk.Wrote` — one file holds something else than before, and no other does;
* `Files.Frail.overwrite_cases`, `Files.Frail.makeFolders_cases`, `Files.Frail.content?_remove` — what the changes come
  to for the files.
-/

namespace Spotlight.Files

/-- How a change goes wrong. -/
structure Mishap where
  /-- What is said of it. -/
  reason : Reason
  /-- How much was done all the same: so many bytes were written to a file, or so many folders were made. -/
  part : Option Nat := none
deriving DecidableEq, Repr

/-- A disk on which changes go wrong. -/
structure Frail where
  /-- The files. -/
  disk : Disk
  /-- What goes wrong with the changes to come, one after the other. -/
  ahead : List (Option Mishap) := []
deriving DecidableEq, Repr

namespace Frail

variable (f : Frail)

/-- Changes the files, or as much of it as the next mishap allows. -/
def change (action : Action) (path : Bytes) (act : Disk → Except Fault Disk) (part : Nat → Disk → Except Fault Disk) :
    StateM Frail (Except Fault Unit) := fun f =>
  match f.ahead with
  | some mishap :: ahead =>
    let disk := match mishap.part with
      | none => f.disk
      | some n => (f.disk.after (part n f.disk)).2
    (.error ⟨action, path, mishap.reason⟩, ⟨disk, ahead⟩)
  | ahead => ((f.disk.after (act f.disk)).1, ⟨(f.disk.after (act f.disk)).2, ahead.tail⟩)

instance : MonadFiles (StateM Frail) where
  here := fun f => (f.disk.herePath, f)
  look path := fun f => (f.disk.look path, f)
  read path := fun f => (f.disk.read path, f)
  overwrite path content :=
    change .access path (·.overwrite path content) fun n d => d.overwrite path (content.take n)
  replace path content mode := change .stage path (·.replace path content mode) fun _ d => .ok d
  makeFolders path := change .make path (·.makeFolders path) fun n d =>
    d.makeOnWay ((Path.components (Path.absolute d.herePath path)).take n) []
  remove path := change .remove path (·.remove path) fun _ d => .ok d

/-- A change takes place, or fails and leaves nothing or a part of it behind. -/
theorem change_cases (action : Action) (path : Bytes) (act : Disk → Except Fault Disk)
    (part : Nat → Disk → Except Fault Disk) :
    ((change action path act part f).1 = .ok () ∧ act f.disk = .ok (change action path act part f).2.disk) ∨
      ∃ fault, (change action path act part f).1 = .error fault ∧
        ((change action path act part f).2.disk = f.disk ∨
          ∃ n, part n f.disk = .ok (change action path act part f).2.disk) := by
  have hafter : ∀ r : Except Fault Disk, (∃ d, r = .ok d ∧ f.disk.after r = (.ok (), d)) ∨
      ∃ fault, r = .error fault ∧ f.disk.after r = (.error fault, f.disk) := by
    intro r
    cases r with
    | ok d => exact .inl ⟨d, rfl, rfl⟩
    | error fault => exact .inr ⟨fault, rfl, rfl⟩
  rw [change]
  split
  · rename_i mishap ahead _
    refine .inr ⟨_, rfl, ?_⟩
    dsimp only
    split
    · exact .inl rfl
    · rename_i n _
      rcases hafter (part n f.disk) with ⟨d, hpart, hd⟩ | ⟨fault, -, hd⟩
      · rw [hd]
        exact .inr ⟨n, hpart⟩
      · rw [hd]
        exact .inl rfl
  · rcases hafter (act f.disk) with ⟨d, hact, hd⟩ | ⟨fault, -, hd⟩
    · rw [hd]
      exact .inl ⟨rfl, hact⟩
    · rw [hd]
      exact .inr ⟨fault, rfl, .inl rfl⟩

end Frail

/-! ### What files hold -/

namespace Disk

/-- Does the file at the place hold this content now, and every other file what it held before? -/
def Wrote (p : Place) (content : Bytes) (d d' : Disk) : Prop :=
  ∀ q, d'.content? q = if q = p then some content else d.content? q

theorem wrote_of_overwrite {d d' : Disk} {path content : Bytes} (h : d.overwrite path content = .ok d') :
    ∃ p, d.locate path = .ok p ∧ Wrote p content d d' := by
  obtain ⟨p, mode, hslot, rfl⟩ := exists_of_overwrite h
  obtain ⟨-, hlocate, hfile⟩ := slot_eq_ok_iff.1 hslot
  exact ⟨p, hlocate, content?_set d hfile mode content⟩

theorem content?_erase (d : Disk) {p q : Place} (h : q ≠ p) : (d.erase p).content? q = d.content? q := by
  apply content?_of_get?
  by_cases hq : q = []
  · rw [hq, get?_nil, get?_nil]
  · rw [get?_of_ne_nil _ hq, get?_of_ne_nil _ hq, erase, lookup_filter, if_neg h]

end Disk

namespace Frail

variable (f : Frail) (path content : Bytes)

/-- A file is written, or nothing was done, or it holds a part of what was to be written. -/
theorem overwrite_cases :
    let r := (MonadFiles.overwrite path content : StateM Frail _) f
    (r.1 = .ok () ∧ ∃ p, f.disk.locate path = .ok p ∧ Disk.Wrote p content f.disk r.2.disk) ∨
      ∃ fault, r.1 = .error fault ∧ (r.2.disk = f.disk ∨
        ∃ p n, f.disk.locate path = .ok p ∧ Disk.Wrote p (content.take n) f.disk r.2.disk) := by
  rcases f.change_cases .access path (·.overwrite path content) fun n d => d.overwrite path (content.take n) with
    ⟨hok, hact⟩ | ⟨fault, herror, hnone | ⟨n, hpart⟩⟩
  · exact .inl ⟨hok, Disk.wrote_of_overwrite hact⟩
  · exact .inr ⟨fault, herror, .inl hnone⟩
  · obtain ⟨p, hp, hwrote⟩ := Disk.wrote_of_overwrite hpart
    exact .inr ⟨fault, herror, .inr ⟨p, n, hp, hwrote⟩⟩

/-- Folders are made or not; no file changes. -/
theorem makeFolders_cases :
    let r := (MonadFiles.makeFolders path : StateM Frail _) f
    (∀ q, r.2.disk.content? q = f.disk.content? q) ∧
      ((r.1 = .ok () ∧ f.disk.makeFolders path = .ok r.2.disk) ∨ ∃ fault, r.1 = .error fault) := by
  rcases f.change_cases .make path (·.makeFolders path) (fun n d =>
    d.makeOnWay ((Path.components (Path.absolute d.herePath path)).take n) []) with
    ⟨hok, hact⟩ | ⟨fault, herror, hnone | ⟨n, hpart⟩⟩
  · exact ⟨(Disk.paved_of_makeOnWay hact).1.content?_eq, .inl ⟨hok, hact⟩⟩
  · exact ⟨fun q => congrArg (·.content? q) hnone, .inr ⟨fault, herror⟩⟩
  · exact ⟨(Disk.paved_of_makeOnWay hpart).1.content?_eq, .inr ⟨fault, herror⟩⟩

/-- Only the file that is removed changes. -/
theorem content?_remove {q : Place} (hq : f.disk.locate path ≠ .ok q) :
    ((MonadFiles.remove path : StateM Frail _) f).2.disk.content? q = f.disk.content? q := by
  rcases f.change_cases .remove path (·.remove path) (fun _ d => .ok d) with
    ⟨-, hact⟩ | ⟨fault, -, hnone | ⟨n, hpart⟩⟩
  · obtain ⟨p, hp, heq⟩ := Disk.exists_of_remove hact
    have hne : q ≠ p := fun hqp => hq (hqp ▸ hp)
    exact (congrArg (·.content? q) heq).trans (f.disk.content?_erase hne)
  · exact congrArg (·.content? q) hnone
  · exact congrArg (·.content? q) (Except.ok.inj hpart).symm

end Frail

end Spotlight.Files
