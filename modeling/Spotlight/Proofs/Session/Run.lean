import Spotlight.Session.Command

/-!
# Running programs on a desk

Programs of a session are run on a `Desk` step by step:

* `Session.run_bind`, `Session.run_throw` — one step after the other, until one fails;
* `Session.run_lift`, `Session.run_during`, `Session.run_write` — file operations as steps of a program;
* `Session.Grows`, `Session.Smooth` — refusals are never taken back, so that a program in which nothing is
  refused has no step in which something is;
* `Session.run_undoEntry`, `Session.run_redoEntry` — undoing and repeating an activation, all branches.
-/

namespace Spotlight.Session

open Files

section

variable {ε α β : Type}

/-! ### Steps -/

section Steps

variable {σ : Type} (d : σ)

@[simp] theorem bind_apply (x : StateM σ α) (f : α → StateM σ β) : (x >>= f) d = f (x d).1 (x d).2 := rfl

@[simp] theorem pure_apply (a : α) : (pure a : StateM σ α) d = (a, d) := rfl

/-- The second step follows if the first one does not fail. -/
theorem run_bind (x : ExceptT ε (StateM σ) α) (f : α → ExceptT ε (StateM σ) β) :
    (x >>= f).run d =
      match x.run d with
      | (.ok a, d') => (f a).run d'
      | (.error failure, d') => (.error failure, d') := by
  show (ExceptT.bindCont f (x.run d).1) (x.run d).2 = _
  obtain ⟨r, d'⟩ := x.run d
  cases r <;> rfl

@[simp] theorem run_pure (a : α) : (pure a : ExceptT ε (StateM σ) α).run d = (.ok a, d) := rfl

@[simp] theorem run_throw (failure : ε) :
    (throw failure : ExceptT ε (StateM σ) α).run d = (.error failure, d) := rfl

@[simp] theorem run_liftM (x : StateM σ α) :
    (liftM x : ExceptT ε (StateM σ) α).run d = (.ok (x d).1, (x d).2) := rfl

@[simp] theorem mapError_ok (f : ε → ε') (a : α) : (.ok a : Except ε α).mapError f = .ok a := rfl

@[simp] theorem mapError_error (f : ε → ε') (failure : ε) :
    (.error failure : Except ε α).mapError f = .error (f failure) := rfl

@[simp] theorem run_lift (act : StateM σ (Except Files.Fault α)) :
    (Files.lift act).run d = ((act d).1.mapError Failure.files, (act d).2) := rfl

@[simp] theorem run_during (activity : Bytes) (act : ExceptT Failure (StateM σ) α) :
    (Files.during activity act).run d = ((act.run d).1.mapError (.during activity), (act.run d).2) := rfl

end Steps

variable (d : Desk)

@[simp] theorem read_apply (path : Bytes) : (MonadFiles.read path : StateM Desk _) d = (d.disk.read path, d) :=
  rfl

@[simp] theorem look_apply (path : Bytes) : (MonadFiles.look path : StateM Desk _) d = (d.disk.look path, d) :=
  rfl

@[simp] theorem here_apply : (MonadFiles.here : StateM Desk Bytes) d = (d.disk.herePath, d) := rfl

theorem overwrite_apply (path content : Bytes) :
    (MonadFiles.overwrite path content : StateM Desk _) d = Desk.change (·.overwrite path content) d := rfl

theorem makeFolders_apply (path : Bytes) :
    (MonadFiles.makeFolders path : StateM Desk _) d = Desk.change (·.makeFolders path) d := rfl

theorem remove_apply (path : Bytes) :
    (MonadFiles.remove path : StateM Desk _) d = Desk.change (·.remove path) d := rfl

theorem change_of_ok {act : Disk → Except Files.Fault Disk} {d : Desk} {disk : Disk}
    (h : act d.disk = .ok disk) : Desk.change act d = (.ok (), { d with disk := disk }) := by
  rw [Desk.change, h]

theorem change_of_error {act : Disk → Except Files.Fault Disk} {d : Desk} {fault : Files.Fault}
    (h : act d.disk = .error fault) :
    Desk.change act d = (.error fault, { d with refused := d.refused ++ [fault] }) := by
  rw [Desk.change, h]

/-- A file is written with the permissions it has. -/
theorem run_write (path content : Bytes) : ∃ mode,
    (Files.write path content : ExceptT Failure (StateM Desk) Unit).run d =
      ((Desk.change (·.replace path content mode) d).1.mapError Failure.files,
        (Desk.change (·.replace path content mode) d).2) := by
  rw [Files.write, run_bind, run_liftM, Files.mode, bind_apply, look_apply]
  cases d.disk.look path with
  | ok status => exact ⟨status.mode, rfl⟩
  | error fault => exact ⟨fileMode, rfl⟩

@[simp] theorem relativize_apply (path : Bytes) :
    (relativize path : StateM Desk Bytes) d = ((Path.relative? d.disk.herePath path).getD path, d) := rfl

theorem run_readTarget (path : Bytes) : (readTarget path : ExceptT Failure (StateM Desk) Bytes).run d =
    (((d.disk.read path).mapError Failure.files).mapError (.during "failed to read test file"), d) := by
  rw [readTarget, run_during, run_lift, read_apply]

/-! ### Refusals -/

/-- Are refusals never taken back? -/
def Grows (x : StateM Desk α) : Prop := ∀ d, d.refused.length ≤ (x d).2.refused.length

/-- Is nothing refused on this desk? -/
def Smooth (x : StateM Desk α) (d : Desk) : Prop := (x d).2.refused.length = d.refused.length

theorem grows_pure (a : α) : Grows (pure a) := fun _ => Nat.le_refl _

theorem grows_bind {x : StateM Desk α} {f : α → StateM Desk β} (hx : Grows x) (hf : ∀ a, Grows (f a)) :
    Grows (x >>= f) := fun d => Nat.le_trans (hx d) (hf _ _)

theorem grows_change (act : Disk → Except Files.Fault Disk) : Grows (Desk.change act) := by
  intro d
  cases hact : act d.disk with
  | ok disk =>
    have hsame : (Desk.change act d).2.refused = d.refused := by rw [change_of_ok hact]
    exact Nat.le_of_eq (congrArg List.length hsame.symm)
  | error fault =>
    rw [change_of_error hact, List.length_append]
    exact Nat.le_add_right _ _

/-- Nothing is refused in the steps of a program if nothing is refused in the whole. -/
theorem Smooth.bind {x : StateM Desk α} {f : α → StateM Desk β} {d : Desk} (h : Smooth (x >>= f) d)
    (hx : Grows x) (hf : ∀ a, Grows (f a)) : Smooth x d ∧ Smooth (f (x d).1) (x d).2 := by
  have hfirst := hx d
  have hsecond := hf (x d).1 (x d).2
  have hwhole : ((f (x d).1) (x d).2).2.refused.length = d.refused.length := h
  exact ⟨Nat.le_antisymm (hwhole ▸ hsecond) hfirst, Nat.le_antisymm (hwhole ▸ hfirst) hsecond⟩

theorem grows_lift {act : StateM Desk (Except Files.Fault α)} (h : Grows act) : Grows (Files.lift act).run :=
  fun d => h d

theorem grows_during {act : ExceptT Failure (StateM Desk) α} (h : Grows act.run) (activity : Bytes) :
    Grows (Files.during activity act).run := fun d => h d

theorem Smooth.of_lift {act : StateM Desk (Except Files.Fault α)} {d : Desk}
    (h : Smooth (Files.lift act).run d) : Smooth act d := h

theorem Smooth.of_during {act : ExceptT Failure (StateM Desk) α} {activity : Bytes} {d : Desk}
    (h : Smooth (Files.during activity act).run d) : Smooth act.run d := h

theorem grows_run_bind {x : ExceptT ε (StateM Desk) α} {f : α → ExceptT ε (StateM Desk) β}
    (hx : Grows x.run) (hf : ∀ a, Grows (f a).run) : Grows (x >>= f).run := by
  intro d
  have hfirst := hx d
  rw [run_bind]
  rcases hrun : x.run d with ⟨r | r, d'⟩
  · rw [hrun] at hfirst
    exact hfirst
  · rw [hrun] at hfirst
    exact Nat.le_trans hfirst (hf r d')

theorem Smooth.run_bind {x : ExceptT ε (StateM Desk) α} {f : α → ExceptT ε (StateM Desk) β} {d : Desk}
    (h : Smooth (x >>= f).run d) (hx : Grows x.run) (hf : ∀ a, Grows (f a).run) :
    Smooth x.run d ∧ ∀ a d', x.run d = (.ok a, d') → Smooth (f a).run d' := by
  have hfirst := hx d
  rw [Smooth, Session.run_bind] at h
  rw [Smooth]
  rcases hrun : x.run d with ⟨r | r, d'⟩
  · rw [hrun] at h
    refine ⟨h, ?_⟩
    intro a d'' heq
    cases heq
  · rw [hrun] at h hfirst
    have hsecond := hf r d'
    have hwhole : ((f r).run d').2.refused.length = d.refused.length := h
    refine ⟨Nat.le_antisymm (hwhole ▸ hsecond) hfirst, ?_⟩
    intro a d'' heq
    cases heq
    exact Nat.le_antisymm (hwhole ▸ hfirst) hsecond

/-- A change that is not refused takes place. -/
theorem Smooth.change {act : Disk → Except Files.Fault Disk} {d : Desk} (h : Smooth (Desk.change act) d) :
    ∃ disk, act d.disk = .ok disk ∧ Desk.change act d = (.ok (), { d with disk := disk }) := by
  cases hact : act d.disk with
  | ok disk => exact ⟨disk, rfl, change_of_ok hact⟩
  | error fault =>
    rw [Smooth, change_of_error hact, List.length_append] at h
    simp at h

/-! ### One entry -/

variable (a : Session (StateM Desk)) (shown : Bytes) (e : History.Entry)

/-- Undoing an activation: what is read, what is compared, and what is written. -/
theorem run_undoEntry : (a.undoEntry shown e).run d =
    match d.disk.read e.path with
    | .error fault => (.error (.files fault), d)
    | .ok current =>
      if Digest.sha256 current ≠ e.hashAfter then
        (.error (.other (shown ++ " changed since '" ++ e.name ++ "' was activated, refusing to undo")), d)
      else match d.disk.read (a.store.snapshotPath e.id) with
        | .error fault => (.error (.during ("could not read snapshot for " ++ e.path) (.files fault)), d)
        | .ok before =>
          if Digest.sha256 before ≠ e.hashBefore then
            (.error (.other ("snapshot for " ++ shown ++ " does not match the file before activation")), d)
          else (a.write e.path before).run d := by
  have hdigest : (digest e.path : ExceptT Failure (StateM Desk) Bytes).run d =
      ((d.disk.read e.path).mapError Failure.files |>.map Digest.sha256, d) := by
    rw [digest, run_bind, run_lift, read_apply]
    cases d.disk.read e.path <;> rfl
  have hsnapshot : (a.store.snapshot e : ExceptT Failure (StateM Desk) Bytes).run d =
      (((d.disk.read (a.store.snapshotPath e.id)).mapError Failure.files).mapError
        (.during ("could not read snapshot for " ++ e.path)), d) := by
    rw [History.Store.snapshot, run_during, run_lift, read_apply]
  rw [undoEntry, run_bind, hdigest]
  cases d.disk.read e.path with
  | error fault => rfl
  | ok current =>
    simp only [mapError_ok, Except.map]
    by_cases hcurrent : Digest.sha256 current ≠ e.hashAfter
    · rw [if_pos hcurrent, if_pos hcurrent]
      rfl
    · rw [if_neg hcurrent, if_neg hcurrent, run_bind, hsnapshot]
      cases d.disk.read (a.store.snapshotPath e.id) with
      | error fault => rfl
      | ok before =>
        simp only [mapError_ok]
        by_cases hbefore : Digest.sha256 before ≠ e.hashBefore
        · rw [if_pos hbefore, if_pos hbefore]
          rfl
        · rw [if_neg hbefore, if_neg hbefore]

/-- Repeating an activation: what is read, what is computed and compared, and what is written. -/
theorem run_redoEntry : (a.redoEntry shown e).run d =
    match d.disk.read e.path with
    | .error fault => (.error (.during "failed to read test file" (.files fault)), d)
    | .ok content =>
      if Digest.sha256 content ≠ e.hashBefore then
        (.error (.other (shown ++ " changed since '" ++ e.name ++ "' was undone, refusing to redo")), d)
      else match Activation.run content (optionsOf e) with
        | .error .malformedName => (.ok none, d)
        | .error fault => (.error (.activation fault), d)
        | .ok done =>
          if Digest.sha256 done.text ≠ e.hashAfter then
            (.error (.other ("redoing '" ++ e.name ++ "' produced different content than recorded")), d)
          else match (a.write e.path done.text).run d with
            | (.ok _, d') => (.ok (some done.disabled), d')
            | (.error failure, d') => (.error failure, d') := by
  rw [redoEntry, run_bind, run_readTarget]
  cases d.disk.read e.path with
  | error fault => rfl
  | ok content =>
    simp only [mapError_ok]
    by_cases hcontent : Digest.sha256 content ≠ e.hashBefore
    · rw [if_pos hcontent, if_pos hcontent]
      rfl
    · rw [if_neg hcontent, if_neg hcontent]
      cases Activation.run content (optionsOf e) with
      | error fault => cases fault <;> rfl
      | ok done =>
        dsimp only
        by_cases htext : Digest.sha256 done.text ≠ e.hashAfter
        · rw [if_pos htext, if_pos htext]
          rfl
        · rw [if_neg htext, if_neg htext, run_bind]
          obtain ⟨r, d'⟩ := (a.write e.path done.text).run d
          cases r <;> rfl

end

end Spotlight.Session
