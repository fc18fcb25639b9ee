import Spotlight.Proofs.History.Record

/-!
# What an activation does to the files

* `Session.ReadOnly` — programs that change nothing at all, such as listing groups;
* `Session.BackedUp` — a backup was made, where there was none, or nothing has changed;
* `Session.Activated` — the file was changed, and the change was recorded;
* `Session.activate_cases` — an activation in which nothing is refused fails and has changed no file that was
  there, or it does not fail, and has changed its file and the history.
-/

namespace Spotlight.Session

open Files History

section

variable {α β : Type}

/-! ### Programs that only read -/

/-- Does the program leave the desk as it is? -/
def ReadOnly (x : StateM Desk α) : Prop := ∀ d, (x d).2 = d

theorem readOnly_pure (a : α) : ReadOnly (pure a) := fun _ => rfl

theorem readOnly_bind {x : StateM Desk α} {f : α → StateM Desk β} (hx : ReadOnly x)
    (hf : ∀ a, ReadOnly (f a)) : ReadOnly (x >>= f) := by
  intro d
  rw [bind_apply, hf, hx]

theorem readOnly_look (path : Bytes) : ReadOnly (MonadFiles.look path : StateM Desk _) := fun _ => rfl

theorem readOnly_here : ReadOnly (MonadFiles.here : StateM Desk Bytes) := fun _ => rfl

theorem readOnly_relativize (path : Bytes) : ReadOnly (relativize path : StateM Desk Bytes) := fun _ => rfl

theorem readOnly_readTarget (path : Bytes) :
    ReadOnly (readTarget path : ExceptT Failure (StateM Desk) Bytes).run := fun _ => rfl

theorem readOnly_firstExisting? (paths : List Bytes) :
    ReadOnly (Lookup.firstExisting? paths : StateM Desk _) := by
  induction paths with
  | nil => exact readOnly_pure _
  | cons path paths ih =>
    refine readOnly_bind (readOnly_look path) fun r => ?_
    cases r with
    | ok status => exact readOnly_pure _
    | error fault => exact ih

theorem readOnly_target (a : Session (StateM Desk)) : ReadOnly a.target := by
  refine readOnly_bind (readOnly_bind readOnly_here fun _ => readOnly_pure _) fun folders => ?_
  unfold Lookup.resolve
  split
  · exact readOnly_pure _
  · exact readOnly_bind (readOnly_firstExisting? _) fun _ => readOnly_pure _

/-- Looking into the test file changes nothing. -/
theorem readOnly_inspect (a : Session (StateM Desk)) (act : Summary → Bytes → Except Fault Summary) :
    ReadOnly (a.inspect act) := by
  refine readOnly_bind a.readOnly_target fun path => readOnly_bind (readOnly_relativize path) fun shown => ?_
  refine readOnly_bind (readOnly_readTarget path) fun r => ?_
  cases r with
  | error failure => exact readOnly_pure _
  | ok content =>
    dsimp only
    split <;> exact readOnly_pure _

end

/-! ### Writing files -/

/-- Without an editor, files are written in one step. -/
theorem defaultWriter_eq {s : Settings} (h : s.nvim = false) :
    (defaultWriter s : Writer (StateM Desk)) = Files.write := by
  funext path content
  rw [defaultWriter, if_neg (by simp [h])]

/-- A file is written, or that is refused. -/
theorem write_cases (d : Desk) (path content : Bytes) :
    (∃ p mode, d.disk.locate path = .ok p ∧ d.disk.isFolderAt p = false ∧
      (Files.write path content : ExceptT Failure (StateM Desk) Unit).run d =
        (.ok (), { d with disk := d.disk.set p (.file mode content) })) ∨
    ∃ failure fault, (Files.write path content : ExceptT Failure (StateM Desk) Unit).run d =
      (.error failure, { d with refused := d.refused ++ [fault] }) := by
  obtain ⟨mode, hrun⟩ := run_write d path content
  rw [hrun]
  cases hreplace : d.disk.replace path content mode with
  | ok disk =>
    obtain ⟨p, hp, hfile, rfl⟩ := Disk.exists_of_replace hreplace
    rw [change_of_ok hreplace]
    exact Or.inl ⟨p, mode, hp, hfile, rfl⟩
  | error fault =>
    rw [change_of_error hreplace]
    exact Or.inr ⟨_, fault, rfl⟩

/-! ### Backups -/

/-- A backup was made where nothing was, or nothing has changed. -/
def BackedUp (backup : Bytes) (d d' : Disk) : Prop :=
  d' = d ∨ ∃ p mode content, d.locate backup = .ok p ∧ d.get? p = none ∧ d' = d.set p (.file mode content)

/-- A backup stands in one place, which was and is no folder. -/
theorem BackedUp.agreeOff {backup : Bytes} {d d' : Disk} (h : BackedUp backup d d') :
    d' = d ∨ ∃ p, d.locate backup = .ok p ∧ d.get? p = none ∧ d.AgreeOff p d' := by
  rcases h with rfl | ⟨p, mode, content, hp, hget, rfl⟩
  · exact Or.inl rfl
  · exact Or.inr ⟨p, hp, hget, .set (by rw [Disk.isFolderAt, hget]) mode content⟩

theorem BackedUp.isFolderAt_eq {backup : Bytes} {d d' : Disk} (h : BackedUp backup d d') (r : Place) :
    d'.isFolderAt r = d.isFolderAt r := by
  rcases h.agreeOff with rfl | ⟨p, -, -, hagree⟩
  · rfl
  · exact hagree.isFolderAt_eq r

theorem BackedUp.evolves {backup : Bytes} {d d' : Disk} (h : BackedUp backup d d') : Disk.Evolves d d' := by
  rcases h.agreeOff with rfl | ⟨p, -, -, hagree⟩
  · exact .refl _
  · exact .of_agreeOff hagree

theorem BackedUp.slot_iff {backup : Bytes} {d d' : Disk} (h : BackedUp backup d d') {path : Bytes}
    {p : Place} : d'.slot path = .ok p ↔ d.slot path = .ok p := by
  rcases h.agreeOff with rfl | ⟨q, -, -, hagree⟩
  · exact Iff.rfl
  · exact hagree.slot_iff

theorem BackedUp.locate_iff {backup : Bytes} {d d' : Disk} (h : BackedUp backup d d') {path : Bytes}
    {p : Place} : d'.locate path = .ok p ↔ d.locate path = .ok p := by
  rcases h.agreeOff with rfl | ⟨q, -, -, hagree⟩
  · exact Iff.rfl
  · exact hagree.locate_iff

theorem BackedUp.replaceable {backup : Bytes} {d d' : Disk} (h : BackedUp backup d d') {path : Bytes}
    {p : Place} (hpath : d.Replaceable path p) : d'.Replaceable path p := by
  rcases h.agreeOff with rfl | ⟨q, -, -, hagree⟩
  · exact hpath
  · exact hagree.replaceable hpath

/-- What was there stays. -/
theorem BackedUp.get?_eq {backup : Bytes} {d d' : Disk} (h : BackedUp backup d d') {r : Place}
    (hr : d.get? r ≠ none) : d'.get? r = d.get? r := by
  rcases h.agreeOff with rfl | ⟨p, -, hget, hagree⟩
  · rfl
  · exact hagree.get?_eq r fun hrp => hr (hrp ▸ hget)

theorem BackedUp.read_of_ok {backup : Bytes} {d d' : Disk} (h : BackedUp backup d d') {path content : Bytes}
    (hread : d.read path = .ok content) : d'.read path = .ok content := by
  obtain ⟨p, mode, hp, hget⟩ := Disk.read_eq_ok_iff.1 hread
  exact Disk.read_eq_ok_iff.2 ⟨p, mode, h.locate_iff.2 hp, by rw [h.get?_eq (by simp [hget]), hget]⟩

/-- Nothing changes where no backup can stand. -/
theorem BackedUp.get?_of_ne {backup : Bytes} {d d' : Disk} (h : BackedUp backup d d') {r : Place}
    (hr : d.locate backup ≠ .ok r) : d'.get? r = d.get? r := by
  rcases h.agreeOff with rfl | ⟨p, hp, -, hagree⟩
  · rfl
  · exact hagree.get?_eq r fun hrp => hr (hrp ▸ hp)

variable {d : Desk} {path backup : Bytes}

/-- Copying a file, all branches. -/
theorem run_copy (d : Desk) (source target : Bytes) :
    (copy source target : ExceptT Failure (StateM Desk) Unit).run d =
      match d.disk.read source with
      | .error fault => (.error (.files fault), d)
      | .ok content =>
        match d.disk.look source with
        | .error fault => (.error (.files fault), d)
        | .ok status =>
          ((Desk.change (·.replace target content status.mode) d).1.mapError Failure.files,
            (Desk.change (·.replace target content status.mode) d).2) := by
  rw [copy, run_bind, run_lift, read_apply]
  dsimp only
  cases d.disk.read source with
  | error fault => rfl
  | ok content =>
    dsimp only [mapError_ok]
    rw [run_bind, run_lift, look_apply]
    dsimp only
    cases d.disk.look source with
    | error fault => rfl
    | ok status => rfl

theorem get?_of_look_error {d : Disk} {path : Bytes} {p : Place} {fault : Files.Fault}
    (hlook : d.look path = .error fault) (hp : d.locate path = .ok p) : d.get? p = none := by
  unfold Disk.look Disk.find at hlook
  rw [hp] at hlook
  simp only [bind, Except.bind] at hlook
  cases hget : d.get? p with
  | none => rfl
  | some e =>
    rw [hget] at hlook
    cases hlook

theorem get?_of_look_ok {d : Disk} {path : Bytes} {p : Place} {status : Status}
    (hlook : d.look path = .ok status) (hp : d.locate path = .ok p) : d.get? p ≠ none := by
  intro hget
  unfold Disk.look Disk.find at hlook
  rw [hp] at hlook
  simp only [bind, Except.bind, hget] at hlook
  cases hlook

/-- Making sure that there is a backup, all branches. -/
theorem run_ensureBackup (d : Desk) (path backup : Bytes) (create : Bool) :
    (ensureBackup path backup create : ExceptT Failure (StateM Desk) Bool).run d =
      match d.disk.look backup with
      | .ok _ => (.ok false, d)
      | .error fault =>
        if !fault.isMissing then (.error (.files fault), d)
        else if !create then (.error (.backupMissing backup), d)
        else match (copy path backup : ExceptT Failure (StateM Desk) Unit).run d with
          | (.ok _, d') => (.ok true, d')
          | (.error failure, d') => (.error (.during ("could not create backup " ++ backup) failure), d') := by
  rw [ensureBackup, run_bind, run_liftM, look_apply]
  dsimp only
  cases d.disk.look backup with
  | ok status => rfl
  | error fault =>
    dsimp only
    split
    · rfl
    · split
      · rfl
      · rw [run_bind, run_during]
        rcases (copy path backup : ExceptT Failure (StateM Desk) Unit).run d with ⟨r | r, d'⟩ <;> rfl

/-- A backup is made at most, unless that is refused. -/
theorem ensureBackup_cases (d : Desk) (path backup : Bytes) (create : Bool) :
    (∃ r disk, (ensureBackup path backup create : ExceptT Failure (StateM Desk) Bool).run d =
      (r, { d with disk := disk }) ∧ BackedUp backup d.disk disk) ∨
    ∃ failure fault, (ensureBackup path backup create : ExceptT Failure (StateM Desk) Bool).run d =
      (.error failure, { d with refused := d.refused ++ [fault] }) := by
  have hsame : ∀ r : Except Failure Bool, ∃ r' disk, (r, d) = (r', { d with disk := disk }) ∧
      BackedUp backup d.disk disk := fun r => ⟨r, d.disk, rfl, Or.inl rfl⟩
  rw [run_ensureBackup, run_copy]
  cases hlook : d.disk.look backup with
  | ok status => exact Or.inl (hsame _)
  | error fault =>
    dsimp only
    split
    · exact Or.inl (hsame _)
    · split
      · exact Or.inl (hsame _)
      · cases d.disk.read path with
        | error fault => exact Or.inl (hsame _)
        | ok content =>
          cases d.disk.look path with
          | error fault => exact Or.inl (hsame _)
          | ok status =>
            dsimp only
            cases hreplace : d.disk.replace backup content status.mode with
            | error fault =>
              rw [change_of_error hreplace]
              exact Or.inr ⟨_, fault, rfl⟩
            | ok disk =>
              rw [change_of_ok hreplace]
              obtain ⟨p, hp, -, heq⟩ := Disk.exists_of_replace hreplace
              exact Or.inl ⟨_, disk, rfl, Or.inr
                ⟨p, status.mode, content, hp, get?_of_look_error hlook hp, heq⟩⟩

/-! ### Opening the test file -/

variable {a : Session (StateM Desk)} {summary : Summary}

/-- Opening the test file, all branches. -/
theorem run_openTarget (a : Session (StateM Desk)) (d : Desk) (path backup : Bytes) (summary : Summary) :
    ∃ errors, (a.openTarget path backup summary).run d =
      match d.disk.look path with
      | .error fault => (.error (.failed summary (.during ("test file " ++ path) (.files fault))), d)
      | .ok _ =>
        match (ensureBackup path backup (!a.settings.restoreBackup) : ExceptT Failure (StateM Desk) Bool).run d
          with
        | (.error failure, d') => (.error (.failed summary failure), d')
        | (.ok _, d') =>
          match d'.disk.read path with
          | .error fault =>
            (.error ⟨summary, some (.during "failed to read test file" (.files fault))⟩,
              { d' with errors := errors })
          | .ok content => (.ok content, { d' with errors := errors }) := by
  rw [openTarget, run_bind, run_liftM, look_apply]
  dsimp only
  cases d.disk.look path with
  | error fault => exact ⟨[], rfl⟩
  | ok status =>
    dsimp only
    rw [run_bind, run_liftM]
    dsimp only
    rcases (ensureBackup path backup (!a.settings.restoreBackup) :
      ExceptT Failure (StateM Desk) Bool).run d with ⟨failure | created, d'⟩
    · exact ⟨[], rfl⟩
    · dsimp only
      cases created with
      | false =>
        refine ⟨d'.errors, ?_⟩
        simp only [Bool.false_eq_true, if_false]
        rw [run_bind, run_liftM, run_readTarget]
        cases d'.disk.read path <;> rfl
      | true =>
        refine ⟨d'.errors ++ Display.status false .info
          ("Created backup " ++ (Path.relative? d'.disk.herePath backup).getD backup), ?_⟩
        simp only [if_true]
        rw [run_bind, run_liftM, relativize_apply]
        dsimp only
        rw [run_bind, run_liftM]
        dsimp only
        rw [run_bind, run_liftM, run_readTarget]
        have hsay : ((MonadDesk.say .info ("Created backup " ++
            (Path.relative? d'.disk.herePath backup).getD backup) : StateM Desk Unit) d').2.disk = d'.disk := rfl
        rw [hsay]
        cases d'.disk.read path <;> rfl

/-- The test file is opened, or the command has failed; a backup is made at most, unless that is refused. -/
theorem openTarget_cases (a : Session (StateM Desk)) (d : Desk) (path backup : Bytes) (summary : Summary) :
    (∃ r disk errors, (a.openTarget path backup summary).run d =
        (r, { d with disk := disk, errors := errors }) ∧ BackedUp backup d.disk disk ∧
      match r with
      | .error o => o.failure ≠ none
      | .ok content => disk.read path = .ok content ∧ ∃ status, d.disk.look path = .ok status) ∨
    ∃ o fault, (a.openTarget path backup summary).run d =
      (.error o, { d with refused := d.refused ++ [fault] }) := by
  obtain ⟨errors, hrun⟩ := a.run_openTarget d path backup summary
  rw [hrun]
  cases hlook : d.disk.look path with
  | error fault => exact Or.inl ⟨_, d.disk, d.errors, rfl, Or.inl rfl, by simp [Outcome.failed]⟩
  | ok status =>
    rcases ensureBackup_cases d path backup (!a.settings.restoreBackup) with
      ⟨r, disk, hensure, hbacked⟩ | ⟨failure, fault, hensure⟩
    · rw [hensure]
      cases r with
      | error failure => exact Or.inl ⟨_, disk, d.errors, rfl, hbacked, by simp [Outcome.failed]⟩
      | ok created =>
        dsimp only
        cases hread : disk.read path with
        | error fault => exact Or.inl ⟨_, disk, errors, rfl, hbacked, by simp⟩
        | ok content => exact Or.inl ⟨_, disk, errors, rfl, hbacked, hread, status, rfl⟩
    · rw [hensure]
      exact Or.inr ⟨_, fault, rfl⟩

/-! ### Changing the test file -/

/-- Where the file still holds what it held, nothing is written to put it back. -/
theorem rollBack_apply (hrestore : a.settings.restoreBackup = false) {before : Bytes}
    (hread : d.disk.read path = .ok before) (summary : Summary) (backup : Bytes) (failure : Failure) :
    ∃ o : Outcome, a.rollBack summary path backup before failure d = (o, d) ∧ o.failure ≠ none := by
  have hholds : (holds path before : StateM Desk Bool) d = (true, d) := by
    rw [holds, bind_apply, read_apply, hread]
    dsimp only
    rw [beq_self_eq_true]
    rfl
  have hback : (a.putBack path backup before).run d = (.ok (), d) := by
    rw [putBack, if_neg (by simp [hrestore]), restoreContent, run_bind, run_liftM, hholds]
    rfl
  rw [rollBack, bind_apply, hback]
  exact ⟨_, rfl, by simp⟩

/-- Changing the test file, all branches. The header line is all that is printed before anything happens. -/
theorem change_apply (a : Session (StateM Desk)) (d : Desk) (summary : Summary) (path backup before : Bytes) :
    ∃ (errors : Bytes) (summary' : Activation → Summary), a.change summary path backup before d =
      match Activation.run before a.settings.options with
      | .error .malformedName => ((a.store, .crash), { d with errors := errors })
      | .error fault =>
        let back := a.rollBack summary path backup before (.activation fault) { d with errors := errors }
        ((a.store, back.1), back.2)
      | .ok done =>
        match (a.write path done.text).run { d with errors := errors } with
        | (.error failure, d') =>
          let back := a.rollBack summary path backup before failure d'
          ((a.store, back.1), back.2)
        | (.ok _, d') =>
          let kept := a.remember (entryOf a.settings.options path backup before done.text) before d'
          ((kept.1, ⟨summary' done, none⟩), kept.2) := by
  let line := "--- Activating '" ++ a.settings.options.name ++ "' in " ++ summary.path ++ " ---"
  have hsay : (MonadDesk.say .header line : StateM Desk Unit) d =
      ((), { d with errors := d.errors ++ Display.status false .header line }) := rfl
  refine ⟨d.errors ++ Display.status false .header line, fun done =>
    { summary.add ("Successfully uncommented '" ++ a.settings.options.name ++
      "' test suite and re-commented others.") with
        activated := a.settings.options.name, disabled := done.disabled, modified := [summary.path] }, ?_⟩
  rw [change, bind_apply, hsay]
  dsimp only
  cases Activation.run before a.settings.options with
  | error fault => cases fault <;> rfl
  | ok done =>
    dsimp only
    rw [bind_apply]
    generalize (a.write path done.text).run _ = r
    obtain ⟨r | r, d'⟩ := r <;> rfl

/-- The entry by which a change on this desk is recorded. -/
def newEntry (o : Options) (path backup before after : Bytes) (d : Desk) : History.Entry :=
  (entryOf o path backup before after).stamped (d.names d.named) d.now

/-- What is shown of the path of the test file. -/
def shownTarget (a : Session (StateM Desk)) (d : Desk) : Bytes :=
  (Path.relative? d.disk.herePath (a.target d).1).getD (a.target d).1

/-- An activation opens the test file, and changes it if that does not fail. -/
theorem activate_eq (a : Session (StateM Desk)) (d : Desk) : a.activate d =
    match (a.openTarget (a.target d).1 (a.settings.backupPath (a.target d).1) { path := a.shownTarget d }).run d
      with
    | (.error o, d') => ((a.store, o), d')
    | (.ok before, d') => a.change { path := a.shownTarget d } (a.target d).1
        (a.settings.backupPath (a.target d).1) before d' := by
  have htarget : a.target d = ((a.target d).1, d) := Prod.ext rfl (a.readOnly_target d)
  rw [activate, bind_apply, htarget]
  dsimp only
  rw [bind_apply, relativize_apply]
  dsimp only
  rw [bind_apply, shownTarget]
  generalize (a.openTarget _ _ _).run d = r
  obtain ⟨r | r, d'⟩ := r <;> rfl

theorem activate_apply (a : Session (StateM Desk)) (d : Desk) :
    ∃ summary : Summary, a.activate d =
      match (a.openTarget (a.target d).1 (a.settings.backupPath (a.target d).1) summary).run d with
      | (.error o, d') => ((a.store, o), d')
      | (.ok before, d') => a.change summary (a.target d).1 (a.settings.backupPath (a.target d).1) before d' :=
  ⟨_, a.activate_eq d⟩

section

variable {home : Place} {before : Bytes} (hhome : ∀ c ∈ home, Path.IsName c)
  (hfolder : a.store.folder = Path.ofComponents true home) (hname : Path.IsName (d.names d.named))
  (hundone : ∀ u ∈ a.store.timeline.undone,
    Path.IsName u.id ∧ d.disk.isFolderAt (Store.snapshotAt home u.id) = false)
  (hslot : d.disk.slot (Store.fileIn a.store.folder) = .ok (Store.fileAt home))

include hhome hfolder hname hundone hslot

/-- A change is recorded unless something is refused. -/
theorem remember_of_smooth {e : History.Entry} (hid : e.id = [])
    (hsmooth : Smooth (a.remember e before) d) :
    ∃ disk, a.remember e before d =
        ({ a.store with timeline := a.store.timeline.record (e.stamped (d.names d.named) d.now) },
          { d with disk := disk, named := d.named + 1 }) ∧
      Store.Recorded home a.store (e.stamped (d.names d.named) d.now) before d.disk disk := by
  obtain ⟨next, hexpand, hdone, hnext⟩ : ∃ next : Store × Except Failure Unit → StateM Desk Store,
      a.remember e before d = (a.store.record (e.stamped (d.names d.named) d.now) before >>= next)
        { d with named := d.named + 1 } ∧ (∀ store, next (store, .ok ()) = pure store) ∧
      ∀ r, Grows (next r) := by
    rw [remember, bind_apply, bind_apply]
    refine ⟨_, rfl, ?_, ?_⟩
    · exact fun _ => rfl
    · rintro ⟨store, failure | _⟩
      · exact grows_bind (fun _ => Nat.le_refl _) fun _ => grows_pure _
      · exact grows_pure _
  have hstamped : Path.IsName (e.stamped (d.names d.named) d.now).id := by
    rw [History.Entry.stamped, hid]
    exact hname
  have hrecord : Smooth (a.store.record (e.stamped (d.names d.named) d.now) before)
      { d with named := d.named + 1 } := by
    rw [Smooth, hexpand] at hsmooth
    exact (Smooth.bind (d := { d with named := d.named + 1 }) hsmooth (Store.grows_record _ _ _) hnext).1
  obtain ⟨disk, hrun, hrecorded⟩ := Store.recorded_of_record hhome hfolder hstamped
    (d := { d with named := d.named + 1 }) hundone hslot hrecord
  refine ⟨disk, ?_, hrecorded⟩
  rw [hexpand, bind_apply, hrun, hdone]
  rfl

/-- Changing the test file fails, and has changed nothing, or the file is written and the change recorded. -/
theorem change_cases (hwrite : a.write = Files.write) (hrestore : a.settings.restoreBackup = false)
    (hread : d.disk.read path = .ok before) (hsmooth : Smooth (a.change summary path backup before) d) :
    ∃ o errors,
      (o.failure ≠ none ∧
        a.change summary path backup before d = ((a.store, o), { d with errors := errors })) ∨
      (o.failure = none ∧ ∃ done p mode disk, Activation.run before a.settings.options = .ok done ∧
        d.disk.locate path = .ok p ∧
        Store.Recorded home a.store (newEntry a.settings.options path backup before done.text d) before
          (d.disk.set p (.file mode done.text)) disk ∧
        a.change summary path backup before d =
          ((⟨a.store.folder, a.store.timeline.record
              (newEntry a.settings.options path backup before done.text d)⟩, o),
            { d with disk := disk, errors := errors, named := d.named + 1 })) := by
  obtain ⟨errors, summary', happly⟩ := a.change_apply d summary path backup before
  rw [Smooth, happly] at hsmooth
  rw [happly]
  cases hrun : Activation.run before a.settings.options with
  | error fault =>
    obtain ⟨o, hback, hfailed⟩ := rollBack_apply (d := { d with errors := errors }) hrestore hread summary
      backup (.activation fault)
    by_cases hmalformed : fault = .malformedName
    · subst hmalformed
      exact ⟨.crash, errors, Or.inl ⟨by simp [Outcome.crash], rfl⟩⟩
    · refine ⟨o, errors, Or.inl ⟨hfailed, ?_⟩⟩
      split
      · rename_i heq
        cases heq
        exact absurd rfl hmalformed
      · rename_i heq
        cases heq
        rw [hback]
      · rename_i heq
        cases heq
  | ok done =>
    rw [hrun] at hsmooth
    dsimp only at hsmooth ⊢
    rw [hwrite] at hsmooth ⊢
    rcases write_cases { d with errors := errors } path done.text with
      ⟨p, mode, hp, hfile, hwritten⟩ | ⟨failure, fault, hwritten⟩
    · rw [hwritten] at hsmooth ⊢
      dsimp only at hsmooth ⊢
      have hset := Disk.AgreeOff.set hfile mode done.text
      obtain ⟨disk, hremember, hrecorded⟩ := remember_of_smooth
        (d := { d with disk := d.disk.set p (.file mode done.text), errors := errors })
        hhome hfolder hname (fun u hu => ⟨(hundone u hu).1, by
          rw [hset.isFolderAt_eq]
          exact (hundone u hu).2⟩) (hset.slot_iff.2 hslot) rfl hsmooth
      exact ⟨_, errors, Or.inr ⟨rfl, done, p, mode, disk, rfl, hp, hrecorded, by rw [hremember]; rfl⟩⟩
    · obtain ⟨o, hback, -⟩ := rollBack_apply (d := { d with errors := errors, refused := d.refused ++ [fault] })
        hrestore hread summary backup failure
      rw [hwritten] at hsmooth
      dsimp only at hsmooth
      rw [hback, List.length_append] at hsmooth
      simp at hsmooth

/-- An activation in which nothing is refused makes a backup at most and fails; or it does not fail, has
changed the test file as it should be, and is recorded. -/
theorem activate_cases (hwrite : a.write = Files.write) (hrestore : a.settings.restoreBackup = false)
    (hpath : (a.target d).1 = path) (hbackup : a.settings.backupPath path = backup)
    (hsmooth : Smooth a.activate d) :
    ∃ o disk errors, BackedUp backup d.disk disk ∧
      ((o.failure ≠ none ∧ a.activate d = ((a.store, o), { d with disk := disk, errors := errors })) ∨
      (o.failure = none ∧ ∃ before done p mode disk', (∃ status, d.disk.look path = .ok status) ∧
        disk.read path = .ok before ∧ Activation.run before a.settings.options = .ok done ∧
        disk.locate path = .ok p ∧
        Store.Recorded home a.store (newEntry a.settings.options path backup before done.text d) before
          (disk.set p (.file mode done.text)) disk' ∧
        a.activate d =
          ((⟨a.store.folder, a.store.timeline.record
              (newEntry a.settings.options path backup before done.text d)⟩, o),
            { d with disk := disk', errors := errors, named := d.named + 1 }))) := by
  subst hbackup
  obtain ⟨summary, hactivate⟩ := a.activate_apply d
  rw [hpath] at hactivate
  rw [Smooth, hactivate] at hsmooth
  rw [hactivate]
  rcases a.openTarget_cases d path (a.settings.backupPath path) summary with
    ⟨r, disk, errors, hopen, hbacked, hr⟩ | ⟨o, fault, hopen⟩
  · rw [hopen] at hsmooth ⊢
    cases r with
    | error o => exact ⟨o, disk, errors, hbacked, Or.inl ⟨hr, rfl⟩⟩
    | ok before =>
      obtain ⟨o, errors', hfailed | ⟨hnone, done, p, mode, disk', hrun, hp, hrecorded, hchange⟩⟩ :=
        change_cases (d := { d with disk := disk, errors := errors }) hhome hfolder hname
          (fun u hu => ⟨(hundone u hu).1, by
            rw [hbacked.isFolderAt_eq]
            exact (hundone u hu).2⟩) (hbacked.slot_iff.2 hslot) hwrite hrestore hr.1 hsmooth
      · exact ⟨o, disk, errors', hbacked, Or.inl ⟨hfailed.1, hfailed.2⟩⟩
      · exact ⟨o, disk, errors', hbacked, Or.inr ⟨hnone, before, done, p, mode, disk', hr.2, hr.1, hrun, hp,
          hrecorded, hchange⟩⟩
  · rw [hopen] at hsmooth
    dsimp only at hsmooth
    rw [List.length_append] at hsmooth
    simp at hsmooth

end

end Spotlight.Session
