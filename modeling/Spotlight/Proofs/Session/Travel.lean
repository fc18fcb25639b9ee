import Spotlight.Proofs.Activation.Basic
import Spotlight.Proofs.History.Store

/-!
# Undoing and repeating are all or nothing

The history moves first, and a step that fails has to move it back. Whatever was done to the files in
between, a step back or forth either changes one file, from the content the history tells to the content
the history tells, or it changes nothing.

* `Session.Direction` — back or forth;
* `Session.Writer.Faithful` — a way to write files that leaves them alone when it fails;
* `Session.Travelled`, `Session.Untouched` — the two ways a step can end;
* `Session.allOrNothing_of_perform` — there is no third way.
-/

namespace Spotlight.Session

open Files History

/-! ### What a step is about -/

/-- A step along the history. -/
inductive Direction
  /-- The last activation is undone. -/
  | back
  /-- The last undone activation is repeated. -/
  | forth
deriving DecidableEq, Repr

namespace Direction

/-- Do the settings ask for the step? -/
def asked : Direction → Settings → Prop
  | back, s => s.undo = true
  | forth, s => s.undo = false ∧ s.redo = true

/-- The activation the step is about, and the timeline after it. -/
def step? : Direction → Timeline → Option (History.Entry × Timeline)
  | back, t => t.undo?
  | forth, t => t.redo?

/-- The step that takes it back. -/
def opposite : Direction → Direction
  | back => forth
  | forth => back

/-- The digest of the file before the step. -/
def hashOld : Direction → History.Entry → Bytes
  | back, e => e.hashAfter
  | forth, e => e.hashBefore

/-- The digest of the file after the step. -/
def hashNew (dir : Direction) (e : History.Entry) : Bytes := dir.opposite.hashOld e

/-- By how much the step moves the index. -/
def shift : Direction → Int
  | back => -1
  | forth => 1

theorem of_step? {dir : Direction} {t t' : Timeline} {e : History.Entry} (h : dir.step? t = some (e, t')) :
    t'.entries = t.entries ∧ t'.index = t.index + dir.shift ∧ e ∈ t.entries := by
  cases dir with
  | back =>
    obtain ⟨hdone, hentries, hget⟩ := Timeline.undo?_eq_some_iff.1 h
    refine ⟨hentries, ?_, List.mem_of_getElem? hget⟩
    rw [Timeline.index, Timeline.index, shift]
    omega
  | forth =>
    obtain ⟨hdone, hentries, hget⟩ := Timeline.redo?_eq_some_iff.1 h
    refine ⟨hentries, ?_, List.mem_of_getElem? hget⟩
    rw [Timeline.index, Timeline.index, shift]
    omega

end Direction

/-- A way to write files that writes the one file it is given, or, when it fails, none at all. -/
structure Writer.Faithful (write : Writer (StateM Desk)) : Prop where
  of_ok : ∀ {path content : Bytes} {d d' : Desk}, (write path content).run d = (.ok (), d') →
    ∃ p mode, d.disk.locate path = .ok p ∧ (d.disk.set p (.file mode content)).Same d'.disk
  of_error : ∀ {path content : Bytes} {d d' : Desk} {failure : Failure},
    (write path content).run d = (.error failure, d') → d.disk.Same d'.disk

/-- Files written by the settings, in one step or through an editor, are written or left alone. -/
theorem faithful_defaultWriter (s : Settings) : (defaultWriter s : Writer (StateM Desk)).Faithful := by
  have hwrite : ∀ {path content : Bytes} {d d' : Desk} {r : Except Failure Unit},
      ((defaultWriter s : Writer (StateM Desk)) path content).run d = (r, d') →
      d.disk.Same d'.disk ∧ r ≠ .ok () ∨
        ∃ mode, d.disk.replace path content mode = .ok d'.disk ∧ r = .ok () := by
    intro path content d d' r h
    unfold defaultWriter at h
    split at h
    · cases h
      exact Or.inl ⟨⟨rfl, fun _ => rfl⟩, by simp⟩
    · obtain ⟨mode, hrun⟩ := run_write d path content
      cases hreplace : d.disk.replace path content mode with
      | ok disk =>
        rw [hrun, change_of_ok hreplace] at h
        cases h
        exact Or.inr ⟨mode, hreplace, rfl⟩
      | error fault =>
        rw [hrun, change_of_error hreplace] at h
        cases h
        exact Or.inl ⟨⟨rfl, fun _ => rfl⟩, by simp⟩
  constructor
  · intro path content d d' h
    obtain ⟨-, h⟩ | ⟨mode, h, -⟩ := hwrite h
    · exact absurd rfl h
    · obtain ⟨p, hp, -, heq⟩ := Disk.exists_of_replace h
      exact ⟨p, mode, hp, by rw [heq]; exact ⟨rfl, fun _ => rfl⟩⟩
  · intro path content d d' failure h
    obtain ⟨h, -⟩ | ⟨_, _, h⟩ := hwrite h
    · exact h
    · cases h

/-- The file of an activation, at the place `p`, went from one content to the other, by their digests, and
every other place is as it was. -/
structure Rewrote (dir : Direction) (e : History.Entry) (p : Place) (d d' : Disk) : Prop where
  locate_eq : d.locate e.path = .ok p
  old : ∃ mode content, d.get? p = some (.file mode content) ∧ Digest.sha256 content = dir.hashOld e
  new : ∃ mode content, d'.get? p = some (.file mode content) ∧ Digest.sha256 content = dir.hashNew e
  agree : Disk.AgreeOff p d d'

/-- The step was taken: the file of the activation went from one content to the other, by their digests, the
history moved by one, and every other place but the file `q` of the history is as it was. The history is
stored unless it is longer than its index can tell. -/
structure Travelled (dir : Direction) (q : Place) (e : History.Entry) (s : Store) (d : Desk) (s' : Store)
    (d' : Desk) : Prop where
  files : ∃ p old new mode mode', d.disk.locate e.path = .ok p ∧
    d.disk.get? p = some (.file mode old) ∧ Digest.sha256 old = dir.hashOld e ∧
    d'.disk.get? p = some (.file mode' new) ∧ Digest.sha256 new = dir.hashNew e ∧
    ∀ r, r ≠ p → r ≠ q → d'.disk.get? r = d.disk.get? r
  folder : s'.folder = s.folder
  entries : s'.timeline.entries = s.timeline.entries
  index : s'.timeline.index = s.timeline.index + dir.shift
  saved : d'.disk.read (Store.fileIn s.folder) = .ok s'.timeline.text
  stored : s.timeline.entries.length ≤ 0x8000000000000000 → s'.IsStored d'

/-- The step was not taken: every place but the file `q` of the history is as it was, and so is the history,
in memory and in its file. -/
structure Untouched (q : Place) (s : Store) (d : Desk) (s' : Store) (d' : Desk) : Prop where
  files : ∀ r, r ≠ q → d'.disk.get? r = d.disk.get? r
  store : s' = s
  stored : s'.IsStored d'

/-- A step ends without a failure, and was taken if there was an activation to take it about; or it ends with
a failure, and was not taken. -/
def AllOrNothing (dir : Direction) (q : Place) (s : Store) (d : Desk) (s' : Store) (o : Outcome) (d' : Desk) :
    Prop :=
  (o.failure = none ∧ match dir.step? s.timeline with
    | none => s' = s ∧ d'.disk = d.disk
    | some (e, _) => Travelled dir q e s d s' d') ∨
  (o.failure ≠ none ∧ Untouched q s d s' d')

/-! ### The file of an activation -/

section

variable {a : Session (StateM Desk)} {shown : Bytes} {e : History.Entry} {d d' : Desk} {failure : Failure}

/-- A file was read, compared, and written. -/
theorem rewrote_of_write (hwriter : a.write.Faithful) {dir : Direction} {old new : Bytes}
    (hread : d.disk.read e.path = .ok old) (hold : Digest.sha256 old = dir.hashOld e)
    (hnew : Digest.sha256 new = dir.hashNew e) (hwrite : (a.write e.path new).run d = (.ok (), d')) :
    ∃ p, Rewrote dir e p d.disk d'.disk := by
  obtain ⟨p, mode, hp, hget⟩ := Disk.read_eq_ok_iff.1 hread
  obtain ⟨p', mode', hp', hsame⟩ := hwriter.of_ok hwrite
  obtain rfl : p' = p := Except.ok.inj (hp'.symm.trans hp)
  have hfile := Disk.isFolderAt_of_file hget
  have hset := Disk.AgreeOff.set hfile mode' new
  have hnewget := Disk.get?_set_self d.disk (Disk.ne_nil_of_isFolderAt hfile) (.file mode' new)
  exact ⟨p', hp, ⟨mode, old, hget, hold⟩, ⟨mode', new, by rw [hsame.get?_eq, hnewget], hnew⟩,
    hset.trans (.of_same hsame hset.right)⟩

/-- Undoing an activation fails before anything is written, or it comes down to writing. -/
theorem undoEntry_cases (a : Session (StateM Desk)) (shown : Bytes) (e : History.Entry) (d : Desk) :
    (∃ failure, (a.undoEntry shown e).run d = (.error failure, d)) ∨
      ∃ old new, d.disk.read e.path = .ok old ∧ Digest.sha256 old = e.hashAfter ∧
        Digest.sha256 new = e.hashBefore ∧ (a.undoEntry shown e).run d = (a.write e.path new).run d := by
  rw [run_undoEntry]
  cases hread : d.disk.read e.path with
  | error fault => exact Or.inl ⟨_, rfl⟩
  | ok old =>
    dsimp only
    by_cases hold : Digest.sha256 old ≠ e.hashAfter
    · rw [if_pos hold]
      exact Or.inl ⟨_, rfl⟩
    · rw [if_neg hold]
      cases d.disk.read (a.store.snapshotPath e.id) with
      | error fault => exact Or.inl ⟨_, rfl⟩
      | ok new =>
        dsimp only
        by_cases hnew : Digest.sha256 new ≠ e.hashBefore
        · rw [if_pos hnew]
          exact Or.inl ⟨_, rfl⟩
        · rw [if_neg hnew]
          exact Or.inr ⟨old, new, rfl, Decidable.not_not.1 hold, Decidable.not_not.1 hnew, rfl⟩

theorem rewrote_of_undoEntry (hwriter : a.write.Faithful)
    (h : (a.undoEntry shown e).run d = (.ok (), d')) : ∃ p, Rewrote .back e p d.disk d'.disk := by
  obtain ⟨failure, hrun⟩ | ⟨old, new, hread, hold, hnew, hrun⟩ := undoEntry_cases a shown e d
  · rw [hrun] at h
    cases h
  · rw [hrun] at h
    exact rewrote_of_write hwriter hread hold hnew h

theorem same_of_undoEntry (hwriter : a.write.Faithful)
    (h : (a.undoEntry shown e).run d = (.error failure, d')) : d.disk.Same d'.disk := by
  obtain ⟨failure', hrun⟩ | ⟨old, new, -, -, -, hrun⟩ := undoEntry_cases a shown e d
  · rw [hrun] at h
    cases h
    exact ⟨rfl, fun _ => rfl⟩
  · rw [hrun] at h
    exact hwriter.of_error h

/-- Repeating an activation fails before anything is written, or it comes down to writing. The search for the
group does not break down, as the texts of the activation are well formed. -/
theorem redoEntry_cases (a : Session (StateM Desk)) (shown : Bytes) (d : Desk) (hloaded : e.IsLoaded) :
    (∃ failure, (a.redoEntry shown e).run d = (.error failure, d)) ∨
      ∃ old done, d.disk.read e.path = .ok old ∧ Digest.sha256 old = e.hashBefore ∧
        Digest.sha256 (done : Activation).text = e.hashAfter ∧ (a.redoEntry shown e).run d =
          (((a.write e.path done.text).run d).1.map fun _ => some done.disabled,
            ((a.write e.path done.text).run d).2) := by
  have hkeyword : (optionsOf e).keyword.isUtf8 = true := by
    rw [← hloaded.1]
    exact Bytes.isUtf8_repaired e.keyword
  have hname : (optionsOf e).name.isUtf8 = true := by
    rw [← hloaded.1]
    exact Bytes.isUtf8_repaired e.name
  rw [run_redoEntry]
  cases hread : d.disk.read e.path with
  | error fault => exact Or.inl ⟨_, rfl⟩
  | ok old =>
    have hformed := Activation.run_ne_malformedName hkeyword hname old
    dsimp only
    by_cases hold : Digest.sha256 old ≠ e.hashBefore
    · rw [if_pos hold]
      exact Or.inl ⟨_, rfl⟩
    · rw [if_neg hold]
      cases hrun : Activation.run old (optionsOf e) with
      | error fault =>
        cases fault with
        | malformedName => exact absurd hrun hformed
        | _ => exact Or.inl ⟨_, rfl⟩
      | ok done =>
        dsimp only
        by_cases hnew : Digest.sha256 done.text ≠ e.hashAfter
        · rw [if_pos hnew]
          exact Or.inl ⟨_, rfl⟩
        · rw [if_neg hnew]
          refine Or.inr ⟨old, done, rfl, Decidable.not_not.1 hold, Decidable.not_not.1 hnew, ?_⟩
          obtain ⟨failure | _, d'⟩ := (a.write e.path done.text).run d <;> rfl

theorem rewrote_of_redoEntry (hwriter : a.write.Faithful) (hloaded : e.IsLoaded)
    {disabled : Option (List Bytes)} (h : (a.redoEntry shown e).run d = (.ok disabled, d')) :
    disabled ≠ none ∧ ∃ p, Rewrote .forth e p d.disk d'.disk := by
  obtain ⟨failure, hrun⟩ | ⟨old, done, hread, hold, hnew, hrun⟩ := redoEntry_cases a shown d hloaded
  · rw [hrun] at h
    cases h
  · rw [hrun] at h
    rcases hwrite : (a.write e.path done.text).run d with ⟨failure | _, d''⟩
    · rw [hwrite] at h
      cases h
    · rw [hwrite] at h
      cases h
      exact ⟨by simp, rewrote_of_write hwriter hread hold hnew hwrite⟩

theorem same_of_redoEntry (hwriter : a.write.Faithful) (hloaded : e.IsLoaded)
    (h : (a.redoEntry shown e).run d = (.error failure, d')) : d.disk.Same d'.disk := by
  obtain ⟨failure', hrun⟩ | ⟨old, done, -, -, -, hrun⟩ := redoEntry_cases a shown d hloaded
  · rw [hrun] at h
    cases h
    exact ⟨rfl, fun _ => rfl⟩
  · rw [hrun] at h
    rcases hwrite : (a.write e.path done.text).run d with ⟨failure' | _, d''⟩
    · rw [hwrite] at h
      cases h
      exact hwriter.of_error hwrite
    · rw [hwrite] at h
      cases h

end

/-! ### The history around it -/

section

variable {dir : Direction} {s : Store} {d d' : Desk} {q : Place} {e : History.Entry} {t : Timeline}
  {mode : Nat}

/-- The history moved, and the file followed. -/
theorem travelled_of_rewrote (hstep : dir.step? s.timeline = some (e, t)) (hstored : s.IsStored d)
    (hsave : d.disk.slot (Store.fileIn s.folder) = .ok q)
    (houtside : ∀ e ∈ s.timeline.entries, d.disk.locate e.path ≠ .ok q) {p : Place}
    (h : Rewrote dir e p (d.disk.set q (.file mode t.text)) d'.disk) :
    Travelled dir q e s d { s with timeline := t } d' := by
  obtain ⟨hentries, hindex, hmem⟩ := Direction.of_step? hstep
  obtain ⟨hlast, hlocate, hfolder⟩ := Disk.slot_eq_ok_iff.1 hsave
  have hset := Disk.AgreeOff.set hfolder mode t.text
  have hp := hset.locate_iff.1 h.locate_eq
  have hne : q ≠ p := fun hqp => houtside e hmem (hqp ▸ hp)
  have hread : d'.disk.read (Store.fileIn s.folder) = .ok t.text := by
    refine (h.agree.read_eq ?_).2 (Disk.read_set hsave mode t.text)
    rw [hset.locate_iff.2 hlocate]
    simpa using hne
  refine ⟨?_, rfl, hentries, hindex, hread, fun hshort => ?_⟩
  · obtain ⟨mode₁, old, hget₁, hold⟩ := h.old
    obtain ⟨mode₂, new, hget₂, hnew⟩ := h.new
    refine ⟨p, old, new, mode₁, mode₂, hp, ?_, hold, hget₂, hnew, fun r hrp hrq => ?_⟩
    · rw [← hget₁, hset.get?_eq p (Ne.symm hne)]
    · rw [h.agree.get?_eq r hrp, hset.get?_eq r hrq]
  · exact Store.isStored_of_read hread (fun e he => hstored.isLoaded.1 e (hentries ▸ he))
      (Timeline.fits64_index (hentries ▸ hshort))

/-- The history moved, the file did not follow, and the history moved back. -/
theorem untouched_of_same (hstored : s.IsStored d)
    (hsave : d.disk.slot (Store.fileIn s.folder) = .ok q)
    (h : (d.disk.set q (.file mode t.text)).Same d'.disk) :
    Untouched q s d ((Store.move { s with timeline := t } s.timeline : StateM Desk _) d').1.1
      ((Store.move { s with timeline := t } s.timeline : StateM Desk _) d').2 := by
  have hfolder := (Disk.slot_eq_ok_iff.1 hsave).2.2
  have hset := Disk.AgreeOff.set hfolder mode t.text
  have hagree := hset.trans (.of_same h hset.right)
  have hsave' : d'.disk.slot (Store.fileIn ({ s with timeline := t } : Store).folder) = .ok q :=
    hagree.slot_iff.2 hsave
  obtain ⟨mode', hmove⟩ := Store.move_apply hsave' s.timeline
  rw [hmove]
  refine ⟨fun r hr => ?_, rfl, ?_⟩
  · rw [(Disk.AgreeOff.set hagree.right mode' s.timeline.text).get?_eq r hr, hagree.get?_eq r hr]
  · exact Store.isStored_of_read (Disk.read_set hsave' mode' s.timeline.text) hstored.isLoaded.1
      hstored.isLoaded.2

variable {a : Session (StateM Desk)}

/-- Undoing: the history moves back, and forth again if the file does not follow. -/
theorem undo_of_some (hstep : a.store.timeline.undo? = some (e, t))
    (hsave : d.disk.slot (Store.fileIn a.store.folder) = .ok q) :
    ∃ mode shown, a.undo d =
      match (undoEntry { a with store := ⟨a.store.folder, t⟩ } shown e).run
          { d with disk := d.disk.set q (.file mode t.text) } with
      | (.ok _, d') =>
        ((⟨a.store.folder, t⟩, ⟨{ Summary.add { path := shown } ("Undid activation of '" ++ e.name ++ "'.") with
          modified := [shown] }, none⟩), d')
      | (.error failure, d') =>
        let back := (Store.move ⟨a.store.folder, t⟩ a.store.timeline : StateM Desk _) d'
        ((back.1.1, .failed { path := shown } (failure.andThen back.1.2)), back.2) := by
  obtain ⟨mode, hmove⟩ := Store.move_apply hsave t
  refine ⟨mode, (Path.relative? (d.disk.set q (.file mode t.text)).herePath e.path).getD e.path, ?_⟩
  have hundo : (a.store.undo : StateM Desk _) d =
      ((⟨a.store.folder, t⟩, .ok (some e)), { d with disk := d.disk.set q (.file mode t.text) }) := by
    rw [Store.undo, hstep]
    dsimp only
    rw [bind_apply, hmove]
    rfl
  have hback : (Store.advance ⟨a.store.folder, t⟩ : StateM Desk _) =
      Store.move ⟨a.store.folder, t⟩ a.store.timeline := by
    rw [Store.advance, Timeline.redo?_of_undo? hstep]
  rw [undo, bind_apply, hundo]
  dsimp only
  rw [bind_apply, relativize_apply]
  dsimp only
  rw [bind_apply]
  generalize (undoEntry (m := StateM Desk) _ _ e).run _ = r
  obtain ⟨r | r, d'⟩ := r
  · dsimp only
    rw [bind_apply, hback]
    rfl
  · rfl

/-- Repeating: the history moves forth, and back again if the file does not follow. -/
theorem redo_of_some (hstep : a.store.timeline.redo? = some (e, t))
    (hsave : d.disk.slot (Store.fileIn a.store.folder) = .ok q) :
    ∃ mode shown, a.redo d =
      match (redoEntry { a with store := ⟨a.store.folder, t⟩ } shown e).run
          { d with disk := d.disk.set q (.file mode t.text) } with
      | (.ok none, d') => ((⟨a.store.folder, t⟩, .crash), d')
      | (.ok (some disabled), d') =>
        ((⟨a.store.folder, t⟩, ⟨{ Summary.add { path := shown } ("Redid activation of '" ++ e.name ++ "'.") with
          activated := e.name, disabled, modified := [shown] }, none⟩), d')
      | (.error failure, d') =>
        let back := (Store.move ⟨a.store.folder, t⟩ a.store.timeline : StateM Desk _) d'
        ((back.1.1, .failed { path := shown } (failure.andThen back.1.2)), back.2) := by
  obtain ⟨mode, hmove⟩ := Store.move_apply hsave t
  refine ⟨mode, (Path.relative? (d.disk.set q (.file mode t.text)).herePath e.path).getD e.path, ?_⟩
  have hredo : (a.store.redo : StateM Desk _) d =
      ((⟨a.store.folder, t⟩, .ok (some e)), { d with disk := d.disk.set q (.file mode t.text) }) := by
    rw [Store.redo, hstep]
    dsimp only
    rw [bind_apply, hmove]
    rfl
  have hback : (Store.rewind ⟨a.store.folder, t⟩ : StateM Desk _) =
      Store.move ⟨a.store.folder, t⟩ a.store.timeline := by
    rw [Store.rewind, Timeline.undo?_of_redo? hstep]
  rw [redo, bind_apply, hredo]
  dsimp only
  rw [bind_apply, relativize_apply]
  dsimp only
  rw [bind_apply]
  generalize (redoEntry (m := StateM Desk) _ _ e).run _ = r
  obtain ⟨r | r, d'⟩ := r
  · dsimp only
    rw [bind_apply, hback]
    rfl
  · cases r <;> rfl

/-- Where there is nothing to undo or to repeat, nothing happens. -/
theorem perform_of_none (d : Desk) (hasked : dir.asked a.settings) (hstep : dir.step? a.store.timeline = none) :
    ∃ o, a.perform d = ((a.store, o), d) ∧ o.failure = none := by
  cases dir with
  | back =>
    have hnone : a.store.timeline.undo? = none := hstep
    have hundo : a.settings.undo = true := hasked
    simp only [perform, hundo, if_true, undo, Store.undo, hnone]
    exact ⟨_, rfl, rfl⟩
  | forth =>
    have hnone : a.store.timeline.redo? = none := hstep
    simp only [perform, hasked.1, hasked.2, if_true, redo, Store.redo, hnone]
    exact ⟨_, rfl, rfl⟩

/-- **Undoing and repeating are all or nothing**, whatever was done to the files: the last activation is
undone, or repeated, from the content the history tells to the content the history tells, and the history
moves by one; or the step fails, and all files and the history are as they were. -/
theorem allOrNothing_of_perform (hasked : dir.asked a.settings) (hwriter : a.write.Faithful)
    (hstored : a.store.IsStored d) (hsave : d.disk.slot (Store.fileIn a.store.folder) = .ok q)
    (houtside : ∀ e ∈ a.store.timeline.entries, d.disk.locate e.path ≠ .ok q) :
    AllOrNothing dir q a.store d (a.perform d).1.1 (a.perform d).1.2 (a.perform d).2 := by
  cases hstep : dir.step? a.store.timeline with
  | none =>
    obtain ⟨o, hperform, hnone⟩ := perform_of_none d hasked hstep
    rw [AllOrNothing, hstep, hperform]
    exact Or.inl ⟨hnone, rfl, rfl⟩
  | some step =>
    obtain ⟨e, t⟩ := step
    rw [AllOrNothing, hstep]
    cases dir with
    | back =>
      have hundo : a.settings.undo = true := hasked
      have hperform : a.perform d = a.undo d := by
        rw [perform]
        simp only [hundo, if_true]
      obtain ⟨mode, shown, hrun⟩ := undo_of_some hstep hsave
      rw [hperform, hrun]
      split
      · rename_i d' hentry
        obtain ⟨p, hrewrote⟩ := rewrote_of_undoEntry hwriter hentry
        exact Or.inl ⟨rfl, travelled_of_rewrote hstep hstored hsave houtside hrewrote⟩
      · rename_i failure d' hentry
        exact Or.inr ⟨by simp [Outcome.failed], untouched_of_same hstored hsave
          (same_of_undoEntry hwriter hentry)⟩
    | forth =>
      have hperform : a.perform d = a.redo d := by
        rw [perform]
        simp only [hasked.1, hasked.2, if_true]
        rfl
      have hloaded := hstored.isLoaded.1 e (Direction.of_step? hstep).2.2
      obtain ⟨mode, shown, hrun⟩ := redo_of_some hstep hsave
      rw [hperform, hrun]
      split
      · rename_i d' hentry
        exact absurd rfl (rewrote_of_redoEntry hwriter hloaded hentry).1
      · rename_i disabled d' hentry
        obtain ⟨-, p, hrewrote⟩ := rewrote_of_redoEntry hwriter hloaded hentry
        exact Or.inl ⟨rfl, travelled_of_rewrote hstep hstored hsave houtside hrewrote⟩
      · rename_i failure d' hentry
        exact Or.inr ⟨by simp [Outcome.failed], untouched_of_same hstored hsave
          (same_of_redoEntry hwriter hloaded hentry)⟩

end

/-- An activation of the file `a`, from one letter to another. -/
def sampleEntry : History.Entry :=
  { id := "1", path := "/a", hashBefore := Digest.sha256 "x", hashAfter := Digest.sha256 "y" }

/-- The history of that activation, which is in force. -/
def sampleStore : Store := ⟨"/.focus", ⟨[sampleEntry], 1, by decide⟩⟩

/-- The place of the file of that history. -/
def samplePlace : Place := [".focus", "state.json"]

/-- A desk with that history, where the file was edited since. -/
def sampleDesk : Desk where
  disk := { entries := [(["a"], .file 0o644 "z"), ([".focus"], .folder 0o755),
    (samplePlace, .file 0o644 sampleStore.timeline.text)] }

theorem isStored_sampleStore : sampleStore.IsStored sampleDesk := by
  refine Store.isStored_of_read (by rfl) ?_ (by decide)
  intro e he
  obtain rfl : e = sampleEntry := by simpa [sampleStore] using he
  rw [History.Entry.isLoaded_iff]
  simp only [sampleEntry, Rune.repaired_of_isUtf8 (Digest.isUtf8_sha256 _)]
  decide

theorem allOrNothing_of_perform_edited :
    let a : Session (StateM Desk) := ⟨{ undo := true }, sampleStore, defaultWriter {}⟩
    Direction.back.step? a.store.timeline ≠ none ∧
      AllOrNothing .back samplePlace a.store sampleDesk (a.perform sampleDesk).1.1 (a.perform sampleDesk).1.2
        (a.perform sampleDesk).2 := by
  have hsave : sampleDesk.disk.slot (Store.fileIn sampleStore.folder) = .ok samplePlace := by rfl
  refine ⟨by simp [Direction.step?, sampleStore, Timeline.undo?], ?_⟩
  refine allOrNothing_of_perform rfl (faithful_defaultWriter {}) isStored_sampleStore hsave ?_
  intro e he
  obtain rfl : e = sampleEntry := by simpa [sampleStore] using he
  have hlocate : sampleDesk.disk.locate sampleEntry.path = .ok ["a"] := by rfl
  rw [hlocate, ne_eq, Except.ok.injEq]
  decide

end Spotlight.Session
