import Spotlight.Proofs.History.Record

/-!
# Histories as two stacks

The activations in force are one stack and the undone ones another. A call of a history pushes an activation,
moves one from stack to stack, or does nothing.

* `History.Stacks` — the two stacks, and how an activation is pushed and moved between them;
* `History.Call` — what can be asked of a history (`Call.act` on any files, `Call.perform` on a desk), and what it
  does to the stacks (`Call.step`);
* `History.Distinct`, `History.Recordable` — can these activations be told apart, and can they be recorded?
* `History.Timeline.Shows` — is a timeline these two stacks? Recording keeps that up, and so does a step back
  or forth (`Timeline.Shows.agrees_undo?`, `Timeline.Shows.agrees_redo?`).
-/

namespace Spotlight.History

open Files Session

/-! ### The stacks -/

/-- A recorded activation, with what its file held before. -/
structure Saved where
  entry : Entry
  before : Bytes
deriving DecidableEq, Repr

/-- The activations in force, the last one on top, and the undone ones, the next one to repeat on top. -/
structure Stacks where
  done : List Saved := []
  undone : List Saved := []
deriving DecidableEq, Repr

namespace Stacks

/-- A new activation is in force, and nothing is left to repeat. -/
def push (k : Stacks) (r : Saved) : Stacks := ⟨r :: k.done, []⟩

/-- The last activation in force is undone, if there is one. -/
def back (k : Stacks) : Stacks × Option Entry :=
  match k.done with
  | [] => (k, none)
  | r :: done => (⟨done, r :: k.undone⟩, some r.entry)

/-- The last undone activation is in force again, if there is one. -/
def forth (k : Stacks) : Stacks × Option Entry :=
  match k.undone with
  | [] => (k, none)
  | r :: undone => (⟨r :: k.done, undone⟩, some r.entry)

/-- All activations, oldest first. -/
def all (k : Stacks) : List Saved := k.done.reverse ++ k.undone

theorem all_push (k : Stacks) (r : Saved) : (k.push r).all = k.done.reverse ++ [r] := by
  rw [push, all, List.reverse_cons, List.append_nil]

theorem mem_all {k : Stacks} {x : Saved} : x ∈ k.all ↔ x ∈ k.done ∨ x ∈ k.undone := by
  rw [all, List.mem_append, List.mem_reverse]

theorem mem_all_push {k : Stacks} {r x : Saved} : x ∈ (k.push r).all ↔ x ∈ k.done ∨ x = r := by
  rw [all_push, List.mem_append, List.mem_reverse, List.mem_singleton]

theorem all_back (k : Stacks) : k.back.1.all = k.all := by
  obtain ⟨done, undone⟩ := k
  cases done with
  | nil => rfl
  | cons r done =>
    show done.reverse ++ r :: undone = (r :: done).reverse ++ undone
    rw [List.reverse_cons, List.append_assoc, List.singleton_append]

theorem all_forth (k : Stacks) : k.forth.1.all = k.all := by
  obtain ⟨done, undone⟩ := k
  cases undone with
  | nil => rfl
  | cons r undone =>
    show (r :: done).reverse ++ undone = done.reverse ++ r :: undone
    rw [List.reverse_cons, List.append_assoc, List.singleton_append]

end Stacks

/-! ### Calls -/

/-- What can be asked of a history. -/
inductive Call
  /-- An activation of a file that held `before` is recorded. The name and the time are for an entry that has
  none. -/
  | record (e : Entry) (name : Bytes) (time : Int) (before : Bytes)
  /-- One activation back. -/
  | undo
  /-- One activation forth. -/
  | redo
  /-- One activation back, when repeating it failed. -/
  | rewind
  /-- One activation forth, when undoing it failed. -/
  | advance
  /-- The history of the project is opened again. -/
  | reload

namespace Call

/-- Performs a call on any files. The history in memory stays when it cannot be opened again. -/
def act {m : Type → Type} [Monad m] [MonadFiles m] (project : Bytes) (s : Store) :
    Call → m (Store × Except Failure (Option Entry))
  | record e name time before => do
    let (s, r) ← s.record (e.stamped name time) before
    return (s, r.map fun _ => none)
  | undo => s.undo
  | redo => s.redo
  | rewind => do
    let (s, r) ← s.rewind
    return (s, r.map fun _ => none)
  | advance => do
    let (s, r) ← s.advance
    return (s, r.map fun _ => none)
  | reload => do
    match ← (Store.load project : ExceptT Failure m Store).run with
    | .error failure => return (s, .error failure)
    | .ok s => return (s, .ok none)

/-- Performs a call on a desk. -/
def perform (project : Bytes) (s : Store) (c : Call) : StateM Desk (Store × Except Failure (Option Entry)) :=
  c.act project s

/-- What a call does to the stacks, and what it answers. -/
def step (k : Stacks) : Call → Stacks × Option Entry
  | record e name time before => (k.push ⟨e.stamped name time, before⟩, none)
  | undo => k.back
  | redo => k.forth
  | rewind => (k.back.1, none)
  | advance => (k.forth.1, none)
  | reload => (k, none)

/-- What a call records. -/
def recorded : Call → List Saved
  | record e name time before => [⟨e.stamped name time, before⟩]
  | _ => []

theorem all_step_sublist (k : Stacks) (c : Call) : (c.step k).1.all.Sublist (k.all ++ c.recorded) := by
  cases c with
  | record e name time before =>
    rw [step, Stacks.all_push, recorded, Stacks.all]
    exact (List.sublist_append_left _ _).append_right _
  | undo | rewind =>
    have hall : k.back.1.all = k.all ++ [] := by rw [Stacks.all_back, List.append_nil]
    exact hall ▸ List.Sublist.refl _
  | redo | advance =>
    have hall : k.forth.1.all = k.all ++ [] := by rw [Stacks.all_forth, List.append_nil]
    exact hall ▸ List.Sublist.refl _
  | reload => exact List.sublist_append_left _ _

end Call

/-- Performs some calls one after the other, and tells what each has answered. -/
def performAll (project : Bytes) : List Call → Store → StateM Desk (Store × List (Except Failure (Option Entry)))
  | [], s => return (s, [])
  | c :: cs, s => do
    let (s, r) ← c.perform project s
    let (s, rs) ← performAll project cs s
    return (s, r :: rs)

/-- What some calls do to the stacks, and what each answers. -/
def stepAll : List Call → Stacks → Stacks × List (Option Entry)
  | [], k => (k, [])
  | c :: cs, k => ((stepAll cs (c.step k).1).1, (c.step k).2 :: (stepAll cs (c.step k).1).2)

theorem all_stepAll_sublist (cs : List Call) (k : Stacks) :
    (stepAll cs k).1.all.Sublist (k.all ++ cs.flatMap Call.recorded) := by
  induction cs generalizing k with
  | nil => exact List.sublist_append_left _ _
  | cons c cs ih =>
    rw [List.flatMap_cons, ← List.append_assoc]
    exact (ih (c.step k).1).trans ((Call.all_step_sublist k c).append_right _)

/-! ### What can be recorded -/

/-- Can the activations be told apart by their names, which name files? -/
structure Distinct (rs : List Saved) : Prop where
  isName : ∀ r ∈ rs, Path.IsName r.entry.id
  isUtf8 : ∀ r ∈ rs, r.entry.id.isUtf8 = true
  nodup : (rs.map (·.entry.id)).Nodup

instance (rs : List Saved) : Decidable (Distinct rs) :=
  decidable_of_iff ((∀ r ∈ rs, Path.IsName r.entry.id) ∧ (∀ r ∈ rs, r.entry.id.isUtf8 = true) ∧
      (rs.map (·.entry.id)).Nodup)
    ⟨fun ⟨h₁, h₂, h₃⟩ => ⟨h₁, h₂, h₃⟩, fun ⟨h₁, h₂, h₃⟩ => ⟨h₁, h₂, h₃⟩⟩

namespace Distinct

variable {rs rs' : List Saved}

theorem sublist (h : Distinct rs') (hsub : rs.Sublist rs') : Distinct rs where
  isName r hr := h.isName r (hsub.subset hr)
  isUtf8 r hr := h.isUtf8 r (hsub.subset hr)
  nodup := h.nodup.sublist (hsub.map _)

/-- No two of them have the same snapshot. -/
theorem id_ne (h : Distinct (rs ++ rs')) {x y : Saved} (hx : x ∈ rs) (hy : y ∈ rs') : x.entry.id ≠ y.entry.id := by
  have hids := h.nodup
  rw [List.map_append, List.nodup_append] at hids
  exact hids.2.2 _ (List.mem_map_of_mem hx) _ (List.mem_map_of_mem hy)

end Distinct

/-- The texts of an entry. -/
def Entry.texts (e : Entry) : List Bytes :=
  [e.id, e.path, e.backup, e.name, e.marker, e.anchor, e.keyword, e.scan, e.hashBefore, e.hashAfter]

/-- Can these activations be recorded? Their names are plain names of files and differ, their texts are well
formed, and their times are 64-bit numbers. -/
structure Recordable (rs : List Saved) : Prop where
  isName : ∀ r ∈ rs, Path.IsName r.entry.id
  isUtf8 : ∀ r ∈ rs, ∀ t ∈ r.entry.texts, t.isUtf8 = true
  fits : ∀ r ∈ rs, Fits64 r.entry.timestamp
  nodup : (rs.map (·.entry.id)).Nodup

instance (rs : List Saved) : Decidable (Recordable rs) :=
  decidable_of_iff ((∀ r ∈ rs, Path.IsName r.entry.id) ∧ (∀ r ∈ rs, ∀ t ∈ r.entry.texts, t.isUtf8 = true) ∧
      (∀ r ∈ rs, Fits64 r.entry.timestamp) ∧ (rs.map (·.entry.id)).Nodup)
    ⟨fun ⟨h₁, h₂, h₃, h₄⟩ => ⟨h₁, h₂, h₃, h₄⟩, fun ⟨h₁, h₂, h₃, h₄⟩ => ⟨h₁, h₂, h₃, h₄⟩⟩

theorem Recordable.sublist {rs rs' : List Saved} (h : Recordable rs') (hsub : rs.Sublist rs') :
    Recordable rs where
  isName r hr := h.isName r (hsub.subset hr)
  isUtf8 r hr := h.isUtf8 r (hsub.subset hr)
  fits r hr := h.fits r (hsub.subset hr)
  nodup := h.nodup.sublist (hsub.map _)

theorem Recordable.distinct {rs : List Saved} (h : Recordable rs) : Distinct rs where
  isName := h.isName
  isUtf8 r hr := h.isUtf8 r hr _ (by simp [Entry.texts])
  nodup := h.nodup

theorem Recordable.isLoaded {rs : List Saved} (h : Recordable rs) {r : Saved} (hr : r ∈ rs) :
    r.entry.IsLoaded := by
  have htexts := h.isUtf8 r hr
  simp only [Entry.texts, List.forall_mem_cons, List.not_mem_nil, false_implies, implies_true, and_true] at htexts
  obtain ⟨h₁, h₂, h₃, h₄, h₅, h₆, h₇, h₈, h₉, h₁₀⟩ := htexts
  rw [Entry.isLoaded_iff]
  simp only [Rune.repaired_of_isUtf8, *]
  exact ⟨by simp only [and_self], h.fits r hr⟩

/-! ### Timelines and stacks -/

namespace Timeline

/-- Is the timeline these two stacks? -/
structure Shows (t : Timeline) (k : Stacks) : Prop where
  entries_eq : t.entries = k.all.map Saved.entry
  done_eq : t.done = k.done.length

/-- Does a step along a timeline lead where a step on the stacks leads? There may be none to take. -/
def Agrees (k : Stacks) (after : Stacks × Option Entry) : Option (Entry × Timeline) → Prop
  | none => after = (k, none)
  | some (e, t) => t.Shows after.1 ∧ after.1.all = k.all ∧ after.2 = some e

namespace Shows

variable {t : Timeline} {k : Stacks}

theorem take_eq (h : t.Shows k) : t.entries.take t.done = k.done.reverse.map Saved.entry := by
  rw [h.entries_eq, h.done_eq, Stacks.all, List.map_append, List.take_left']
  rw [List.length_map, List.length_reverse]

theorem undone_eq (h : t.Shows k) : t.undone = k.undone.map Saved.entry := by
  rw [undone, h.entries_eq, h.done_eq, Stacks.all, List.map_append, List.drop_left']
  rw [List.length_map, List.length_reverse]

theorem record (h : t.Shows k) (r : Saved) : (t.record r.entry).Shows (k.push r) where
  entries_eq := by
    show t.entries.take t.done ++ [r.entry] = _
    rw [h.take_eq, Stacks.all_push, List.map_append]
    rfl
  done_eq := by
    show t.done + 1 = (r :: k.done).length
    rw [h.done_eq, List.length_cons]

theorem agrees_undo? (h : t.Shows k) : Agrees k k.back t.undo? := by
  obtain ⟨done, undone⟩ := k
  have hdone := h.done_eq
  have hle := t.done_le
  cases done with
  | nil =>
    have hnone : t.undo? = none := by
      rw [undo?, dif_neg]
      rw [hdone]
      exact Nat.lt_irrefl 0
    rw [hnone]
    rfl
  | cons r done =>
    rw [List.length_cons] at hdone
    have hstep : t.undo? = some (r.entry, ⟨t.entries, done.length, by omega⟩) := by
      refine undo?_eq_some_iff.2 ⟨hdone.symm, rfl, ?_⟩
      dsimp only
      rw [h.entries_eq, Stacks.all, List.reverse_cons, List.append_assoc, List.map_append,
        List.getElem?_append_right (by simp)]
      simp
    rw [hstep]
    have hall := Stacks.all_back ⟨r :: done, undone⟩
    exact ⟨⟨by rw [hall]; exact h.entries_eq, rfl⟩, hall, rfl⟩

theorem agrees_redo? (h : t.Shows k) : Agrees k k.forth t.redo? := by
  obtain ⟨done, undone⟩ := k
  have hdone := h.done_eq
  have hlength := congrArg List.length h.entries_eq
  rw [Stacks.all, List.length_map, List.length_append, List.length_reverse] at hlength
  dsimp only at hdone hlength
  cases undone with
  | nil =>
    have hnone : t.redo? = none := by
      rw [redo?, dif_neg]
      rw [hlength, hdone]
      exact Nat.lt_irrefl _
    rw [hnone]
    rfl
  | cons r undone =>
    rw [List.length_cons] at hlength
    have hstep : t.redo? = some (r.entry, ⟨t.entries, done.length + 1, by omega⟩) := by
      refine redo?_eq_some_iff.2 ⟨by rw [hdone], rfl, ?_⟩
      rw [h.entries_eq, hdone, Stacks.all, List.map_append, List.getElem?_append_right (by simp)]
      simp
    rw [hstep]
    have hall := Stacks.all_forth ⟨done, r :: undone⟩
    exact ⟨⟨by rw [hall]; exact h.entries_eq, rfl⟩, hall, rfl⟩

end Shows

end Timeline

end Spotlight.History
