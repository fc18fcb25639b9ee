import Spotlight.Proofs.History.Stacks

/-!
# A history on disk refines the two stacks

Whatever calls follow each other in a project, the history in memory, its file and its snapshots are those of
the stacks, and the history may be loaded anew at any time.

* `History.Store.Reloads` — is the timeline in memory the one that is loaded?
* `History.Follows` — do the history in memory, its file and its snapshots follow the stacks?
* `History.Follows.step`, `History.Follows.run` — one call keeps that up, and so do all;
* `History.twoStacks_of_performAll` — a history that starts empty is the two stacks after any calls.
-/

namespace Spotlight.History

open Files Session

/-! ### Loading anew -/

namespace Store

/-- The place of the snapshots, by the place of the history. -/
def snapshotsAt (home : Place) : Place := home ++ [Bytes.ofString "snapshots"]

theorem snapshotsAt_prefix (home : Place) (id : Bytes) : snapshotsAt home <+: snapshotAt home id := by
  rw [snapshotsAt, snapshotAt, List.prefix_append_right_inj]
  exact ⟨[id], rfl⟩

theorem not_snapshotsAt_prefix (home : Place) : ¬ snapshotsAt home <+: fileAt home := by
  rw [snapshotsAt, fileAt, List.prefix_append_right_inj]
  decide

/-- Is the timeline in memory the one that is loaded? Its index may be too large for the file. -/
structure Reloads (s : Store) (d : Desk) : Prop where
  eq_of_load : ∀ t, ((loadTimeline (fileIn s.folder) : ExceptT Failure (StateM Desk) Timeline).run d).1 = .ok t →
    t = s.timeline
  isStored : s.timeline.entries.length ≤ 0x8000000000000000 → s.IsStored d

theorem reloads_of_isStored {s : Store} {d : Desk} (h : s.IsStored d) : s.Reloads d where
  eq_of_load t ht := by
    rw [IsStored] at h
    rw [h] at ht
    exact (Except.ok.inj ht).symm
  isStored _ := h

/-- A timeline that was written is loaded, if it can come out of a file. -/
theorem reloads_of_read {s : Store} {d : Desk} (hread : d.disk.read (fileIn s.folder) = .ok s.timeline.text)
    (hentries : ∀ e ∈ s.timeline.entries, e.IsLoaded) : s.Reloads d where
  eq_of_load t ht := by
    have hsame : s.timeline.entries.map Entry.repaired = s.timeline.entries := by
      rw [List.map_congr_left fun e he => (hentries e he).1, List.map_id']
    rw [eq_repaired_of_loadTimeline hread ht]
    simp only [Timeline.repaired, hsame]
  isStored hshort := isStored_of_read hread hentries (Timeline.fits64_index hshort)

/-- A step along the timeline, told by the activation it is about. There may be none to take. -/
def travel (s : Store) : Option (Entry × Timeline) → StateM Desk (Store × Except Failure (Option Entry))
  | none => return (s, .ok none)
  | some (e, t) => do
    let (s, r) ← s.move t
    return (s, r.map fun _ => some e)

theorem undo_eq_travel (s : Store) : (s.undo : StateM Desk _) = s.travel s.timeline.undo? := by
  rw [undo]
  cases s.timeline.undo? <;> rfl

theorem redo_eq_travel (s : Store) : (s.redo : StateM Desk _) = s.travel s.timeline.redo? := by
  rw [redo]
  cases s.timeline.redo? <;> rfl

/-- The same step, told by nothing. -/
def travelSilently (s : Store) (step : Option (Entry × Timeline)) : StateM Desk (Store × Except Failure Unit) :=
  fun d => ((((s.travel step) d).1.1, ((s.travel step) d).1.2.map fun _ => ()), ((s.travel step) d).2)

theorem travelSilently_some (s : Store) (e : Entry) (t : Timeline) :
    s.travelSilently (some (e, t)) = s.move t := by
  funext d
  dsimp only [travelSilently, travel, bind_apply]
  rcases (s.move t : StateM Desk _) d with ⟨⟨s', failure | _⟩, d'⟩ <;> rfl

theorem rewind_eq_travel (s : Store) : (s.rewind : StateM Desk _) = s.travelSilently s.timeline.undo? := by
  rw [rewind]
  cases s.timeline.undo? with
  | none => rfl
  | some step => exact (travelSilently_some s step.1 step.2).symm

theorem advance_eq_travel (s : Store) : (s.advance : StateM Desk _) = s.travelSilently s.timeline.redo? := by
  rw [advance]
  cases s.timeline.redo? with
  | none => rfl
  | some step => exact (travelSilently_some s step.1 step.2).symm

end Store

/-! ### Snapshots -/

/-- Are the files among the snapshots exactly those of some activations, each with what was before it? -/
def KeepsSnapshots (home : Place) (rs : List Saved) (d : Disk) : Prop :=
  ∀ p c, Store.snapshotsAt home <+: p →
    (d.content? p = some c ↔ ∃ r ∈ rs, p = Store.snapshotAt home r.entry.id ∧ c = r.before)

/-- Recording an activation keeps the snapshots of those in force, and its own. -/
theorem keepsSnapshots_of_recorded {home : Place} {k : Stacks} {s : Store} {r : Saved} {d d' : Disk}
    (h : KeepsSnapshots home k.all d) (hshows : s.timeline.Shows k) (hnew : Recordable (k.all ++ [r]))
    (hrecorded : Store.Recorded home s r.entry r.before d d') : KeepsSnapshots home (k.push r).all d' := by
  have hold : Recordable (k.done.reverse ++ k.undone) := hnew.sublist (List.sublist_append_left _ _)
  have hfresh : ∀ x ∈ k.all, x.entry.id ≠ r.entry.id := fun x hx => hnew.distinct.id_ne hx (List.mem_singleton_self r)
  intro p c hp
  by_cases hr : p = Store.snapshotAt home r.entry.id
  · -- the snapshot that was written
    subst hr
    rw [hrecorded.snapshot, Option.some.injEq]
    constructor
    · rintro rfl
      exact ⟨r, Stacks.mem_all_push.2 (Or.inr rfl), rfl, rfl⟩
    · rintro ⟨x, hx, hplace, rfl⟩
      rcases Stacks.mem_all_push.1 hx with hx | rfl
      · exact absurd (Store.snapshotAt_inj hplace).symm (hfresh x (Stacks.mem_all.2 (Or.inl hx)))
      · rfl
  by_cases hu : ∃ u ∈ k.undone, p = Store.snapshotAt home u.entry.id
  · -- a snapshot that was removed
    obtain ⟨u, hu, rfl⟩ := hu
    have hmem : u.entry ∈ s.timeline.undone := hshows.undone_eq ▸ List.mem_map_of_mem hu
    rw [hrecorded.gone u.entry hmem (hfresh u (Stacks.mem_all.2 (Or.inr hu)))]
    constructor
    · intro hnone
      cases hnone
    · rintro ⟨x, hx, hplace, -⟩
      rcases Stacks.mem_all_push.1 hx with hx | rfl
      · exact absurd (Store.snapshotAt_inj hplace).symm (hold.distinct.id_ne (List.mem_reverse.2 hx) hu)
      · exact absurd hplace hr
  · -- any other one is as it was
    have hsame : d'.content? p = d.content? p := by
      refine hrecorded.elsewhere p ?_ hr fun u hmem hplace => hu ?_
      · rintro rfl
        exact Store.not_snapshotsAt_prefix home hp
      · rw [hshows.undone_eq] at hmem
        obtain ⟨x, hx, rfl⟩ := List.mem_map.1 hmem
        exact ⟨x, hx, hplace⟩
    have hmem : ∀ x : Saved, p = Store.snapshotAt home x.entry.id → (x ∈ k.all ↔ x ∈ (k.push r).all) := by
      intro x hplace
      have hundone : x ∉ k.undone := fun hx => hu ⟨x, hx, hplace⟩
      have hne : x ≠ r := by
        rintro rfl
        exact hr hplace
      rw [Stacks.mem_all, Stacks.mem_all_push, or_iff_left hundone, or_iff_left hne]
    rw [hsame, h p c hp]
    exact exists_congr fun x => and_congr_left fun hx => hmem x hx.1

/-! ### Refusals -/

theorem grows_perform (project : Bytes) (s : Store) (c : Call) : Grows (c.perform project s) := by
  have hload : Grows (Store.load project : ExceptT Failure (StateM Desk) Store).run := by
    refine grows_run_bind (grows_during (grows_lift (grows_change _)) _) fun _ => grows_run_bind ?_ fun _ => ?_
    · intro d
      have hsame := congrArg Prod.snd (Store.run_loadTimeline (Store.fileIn (Store.folderOf project)) d)
      exact Nat.le_of_eq (congrArg (fun d : Desk => d.refused.length) hsame.symm)
    · exact fun _ => Nat.le_refl _
  have htravel : ∀ step, Grows (s.travel step) := by
    intro step
    cases step with
    | none => exact grows_pure _
    | some step => exact grows_bind (Store.grows_move s _) fun _ => grows_pure _
  cases c with
  | record e name time before => exact grows_bind (Store.grows_record s _ before) fun _ => grows_pure _
  | undo =>
    rw [Call.perform, Call.act, Store.undo_eq_travel]
    exact htravel _
  | redo =>
    rw [Call.perform, Call.act, Store.redo_eq_travel]
    exact htravel _
  | rewind =>
    rw [Call.perform, Call.act, Store.rewind_eq_travel]
    exact grows_bind (htravel _) fun _ => grows_pure _
  | advance =>
    rw [Call.perform, Call.act, Store.advance_eq_travel]
    exact grows_bind (htravel _) fun _ => grows_pure _
  | reload =>
    refine grows_bind hload fun r => ?_
    cases r <;> exact grows_pure _

theorem grows_performAll (project : Bytes) (cs : List Call) (s : Store) : Grows (performAll project cs s) := by
  induction cs generalizing s with
  | nil => exact grows_pure _
  | cons c cs ih =>
    exact grows_bind (grows_perform project s c) fun r => grows_bind (ih r.1) fun _ => grows_pure _

/-! ### Following the stacks -/

/-- Do the history in memory, its file and its snapshots follow the stacks? -/
structure Follows (project : Bytes) (s : Store) (k : Stacks) (d : Desk) : Prop where
  folder_eq : s.folder = Store.folderOf project
  shows : s.timeline.Shows k
  recordable : Recordable k.all
  folders : ∀ n ≤ (Store.homeOf project).length, d.disk.isFolderAt ((Store.homeOf project).take n) = true
  slot_eq : d.disk.slot (Store.fileIn s.folder) = .ok (Store.fileAt (Store.homeOf project))
  reloads : s.Reloads d
  snapshots : KeepsSnapshots (Store.homeOf project) k.all d.disk

namespace Follows

variable {project : Bytes} {s : Store} {k k' : Stacks} {d : Desk} {t : Timeline}

theorem isLoaded_of_shows (hrecordable : Recordable k.all) (ht : t.Shows k) : ∀ e ∈ t.entries, e.IsLoaded := by
  intro e he
  rw [ht.entries_eq] at he
  obtain ⟨r, hr, rfl⟩ := List.mem_map.1 he
  exact hrecordable.isLoaded hr

/-- Moving along the timeline follows a move between the stacks. -/
theorem move (h : Follows project s k d) (ht : t.Shows k') (hall : k'.all = k.all) :
    ∃ d', (s.move t : StateM Desk _) d = (({ s with timeline := t }, .ok ()), d') ∧
      Follows project { s with timeline := t } k' d' := by
  obtain ⟨mode, hmove⟩ := Store.move_apply h.slot_eq t
  have hset := Disk.AgreeOff.set (Disk.slot_eq_ok_iff.1 h.slot_eq).2.2 mode t.text
  have hrecordable : Recordable k'.all := hall ▸ h.recordable
  refine ⟨_, hmove, h.folder_eq, ht, hrecordable, fun n hn => ?_, hset.slot_iff.2 h.slot_eq, ?_, ?_⟩
  · rw [hset.isFolderAt_eq, h.folders n hn]
  · exact Store.reloads_of_read (Disk.read_set h.slot_eq mode t.text) (isLoaded_of_shows hrecordable ht)
  · intro p c hp
    have hne : p ≠ Store.fileAt (Store.homeOf project) := by
      rintro rfl
      exact Store.not_snapshotsAt_prefix _ hp
    rw [hall, hset.content?_eq hne]
    exact h.snapshots p c hp

/-- A step along the timeline follows a step on the stacks, and is told by the same activation. -/
theorem travel (h : Follows project s k d) {after : Stacks × Option Entry} {step : Option (Entry × Timeline)}
    (hstep : Timeline.Agrees k after step) :
    ∃ s' d', s.travel step d = ((s', .ok after.2), d') ∧ Follows project s' after.1 d' := by
  cases step with
  | none =>
    have hafter : after = (k, none) := hstep
    subst hafter
    exact ⟨s, d, rfl, h⟩
  | some step =>
    obtain ⟨e, t⟩ := step
    obtain ⟨ht, hall, hanswer⟩ : t.Shows after.1 ∧ after.1.all = k.all ∧ after.2 = some e := hstep
    obtain ⟨d', hmove, hfollows⟩ := h.move ht hall
    refine ⟨_, d', ?_, hfollows⟩
    rw [Store.travel, bind_apply, hmove, hanswer]
    rfl

/-- Recording an activation follows a push. -/
theorem record (hproject : Path.isAbsolute project = true) (h : Follows project s k d) (r : Saved)
    (hnew : Recordable (k.all ++ [r])) (hsmooth : Smooth (s.record r.entry r.before) d) :
    ∃ s' d', (s.record r.entry r.before : StateM Desk _) d = ((s', .ok ()), d') ∧
      Follows project s' (k.push r) d' := by
  have hhome := Store.isName_of_mem_homeOf hproject
  have hfolder := h.folder_eq.trans (Store.folderOf_eq hproject)
  have hundone : ∀ u ∈ s.timeline.undone, Path.IsName u.id ∧
      d.disk.isFolderAt (Store.snapshotAt (Store.homeOf project) u.id) = false := by
    intro u hu
    rw [h.shows.undone_eq] at hu
    obtain ⟨x, hx, rfl⟩ := List.mem_map.1 hu
    have hmem : x ∈ k.all := List.mem_append_right _ hx
    have hcontent := (h.snapshots _ x.before (Store.snapshotsAt_prefix _ _)).2 ⟨x, hmem, rfl, rfl⟩
    exact ⟨h.recordable.isName x hmem, Disk.isFolderAt_of_content? hcontent⟩
  obtain ⟨disk, hrun, hrecorded⟩ := Store.recorded_of_record hhome hfolder (hnew.isName r (by simp)) hundone
    h.slot_eq hsmooth
  have hshows := h.shows.record r
  have hrecordable : Recordable (k.push r).all := by
    rw [Stacks.all_push]
    exact hnew.sublist ((List.sublist_append_left _ _).append_right _)
  refine ⟨_, _, hrun, h.folder_eq, hshows, hrecordable, fun n hn => ?_, hrecorded.slot_eq, ?_, ?_⟩
  · exact hrecorded.evolves.isFolderAt _ (h.folders n hn)
  · exact Store.reloads_of_read hrecorded.saved (isLoaded_of_shows hrecordable hshows)
  · exact keepsSnapshots_of_recorded h.snapshots h.shows hnew hrecorded

/-- Opening the history again changes nothing. -/
theorem load (hproject : Path.isAbsolute project = true) (h : Follows project s k d)
    (hshort : k.all.length ≤ 0x8000000000000000) :
    (Store.load project : ExceptT Failure (StateM Desk) Store).run d = (.ok s, d) := by
  have hlength : s.timeline.entries.length ≤ 0x8000000000000000 := by
    rw [h.shows.entries_eq, List.length_map]
    exact hshort
  have hstored := h.reloads.isStored hlength
  rw [Store.IsStored, h.folder_eq] at hstored
  rw [Store.run_load_of_isFolderAt hproject h.folders, hstored, ← h.folder_eq]
  rfl

/-- **One call follows the stacks**, and gives their answer. -/
theorem step (hproject : Path.isAbsolute project = true) (h : Follows project s k d) (c : Call)
    (hnew : Recordable (k.all ++ c.recorded)) (hsmooth : Smooth (c.perform project s) d) :
    ∃ s' r d', c.perform project s d = ((s', r), d') ∧ Follows project s' (c.step k).1 d' ∧
      (k.all.length ≤ 0x8000000000000000 → r = .ok (c.step k).2) := by
  cases c with
  | record e name time before =>
    have hrecord : Smooth (s.record (e.stamped name time) before) d :=
      (hsmooth.bind (Store.grows_record _ _ _) fun _ => grows_pure _).1
    obtain ⟨s', d', hrun, hfollows⟩ := h.record hproject ⟨e.stamped name time, before⟩ hnew hrecord
    refine ⟨s', .ok none, d', ?_, hfollows, fun _ => rfl⟩
    rw [Call.perform, Call.act, bind_apply, hrun]
    rfl
  | undo =>
    obtain ⟨s', d', hrun, hfollows⟩ := h.travel h.shows.agrees_undo?
    exact ⟨s', .ok k.back.2, d', by rw [Call.perform, Call.act, Store.undo_eq_travel, hrun], hfollows, fun _ => rfl⟩
  | redo =>
    obtain ⟨s', d', hrun, hfollows⟩ := h.travel h.shows.agrees_redo?
    exact ⟨s', .ok k.forth.2, d', by rw [Call.perform, Call.act, Store.redo_eq_travel, hrun], hfollows, fun _ => rfl⟩
  | rewind =>
    obtain ⟨s', d', hrun, hfollows⟩ := h.travel h.shows.agrees_undo?
    refine ⟨s', .ok none, d', ?_, hfollows, fun _ => rfl⟩
    rw [Call.perform, Call.act, bind_apply, Store.rewind_eq_travel, Store.travelSilently, hrun]
    rfl
  | advance =>
    obtain ⟨s', d', hrun, hfollows⟩ := h.travel h.shows.agrees_redo?
    refine ⟨s', .ok none, d', ?_, hfollows, fun _ => rfl⟩
    rw [Call.perform, Call.act, bind_apply, Store.advance_eq_travel, Store.travelSilently, hrun]
    rfl
  | reload =>
    -- With too many activations for an index of 64 bits, the file is refused and the history stays.
    have hload := Store.run_load_of_isFolderAt hproject h.folders
    cases htimeline : ((Store.loadTimeline (Store.fileIn (Store.folderOf project)) :
        ExceptT Failure (StateM Desk) Timeline).run d).1 with
    | error failure =>
      rw [htimeline] at hload
      refine ⟨s, .error failure, d, ?_, h, fun hshort => ?_⟩
      · rw [Call.perform, Call.act, bind_apply, hload]
        rfl
      · rw [h.load hproject hshort] at hload
        cases hload
    | ok t =>
      rw [htimeline] at hload
      obtain rfl := h.reloads.eq_of_load t (by rw [h.folder_eq]; exact htimeline)
      refine ⟨s, .ok none, d, ?_, h, fun _ => rfl⟩
      rw [Call.perform, Call.act, bind_apply, hload, ← h.folder_eq]
      rfl

/-- A history that was opened and holds nothing follows the empty stacks. -/
theorem of_load (hproject : Path.isAbsolute project = true) {d₀ : Desk}
    (hload : (Store.load project : ExceptT Failure (StateM Desk) Store).run d₀ = (.ok s, d))
    (hempty : s.timeline.entries = [])
    (hnone : ∀ p, Store.snapshotsAt (Store.homeOf project) <+: p → d.disk.content? p = none) :
    Follows project s {} d := by
  have hslot := Store.slot_of_load hproject hload
  obtain ⟨disk, hmake, rfl, hfolder, hstored⟩ := Store.exists_of_load hproject hload
  obtain ⟨-, hfolders⟩ := Disk.paved_of_makeFolders (Store.isName_of_mem_homeOf hproject) hmake
  refine ⟨hfolder.trans (Store.folderOf_eq hproject).symm, ⟨hempty, ?_⟩, ?_, hfolders, hslot,
    Store.reloads_of_isStored hstored, fun p c hp => ?_⟩
  · have hle := s.timeline.done_le
    rw [hempty, List.length_nil] at hle
    exact Nat.le_zero.1 hle
  · exact ⟨by simp [Stacks.all], by simp [Stacks.all], by simp [Stacks.all], by simp [Stacks.all]⟩
  · simp [hnone p hp, Stacks.all]

/-- **All calls follow the stacks**, one after the other. -/
theorem run (hproject : Path.isAbsolute project = true) (calls : List Call) (h : Follows project s k d)
    (hnew : Recordable (k.all ++ calls.flatMap Call.recorded)) (hsmooth : Smooth (performAll project calls s) d) :
    Follows project (performAll project calls s d).1.1 (stepAll calls k).1 (performAll project calls s d).2 ∧
      ((k.all ++ calls.flatMap Call.recorded).length ≤ 0x8000000000000000 →
        (performAll project calls s d).1.2 = (stepAll calls k).2.map .ok) := by
  induction calls generalizing s k d with
  | nil => exact ⟨h, fun _ => rfl⟩
  | cons c cs ih =>
    rw [List.flatMap_cons, ← List.append_assoc] at hnew ⊢
    obtain ⟨hcall, hrest⟩ := hsmooth.bind (grows_perform project s c) fun r =>
      grows_bind (grows_performAll project cs r.1) fun _ => grows_pure _
    obtain ⟨s', r, d', hrun, hfollows, hanswer⟩ :=
      h.step hproject c (hnew.sublist (List.sublist_append_left _ _)) hcall
    have hall := (Call.all_step_sublist k c).append_right (cs.flatMap Call.recorded)
    rw [hrun] at hrest
    obtain ⟨hend, hanswers⟩ := ih hfollows (hnew.sublist hall)
      (hrest.bind (grows_performAll project cs s') fun _ => grows_pure _).1
    have hwhole : performAll project (c :: cs) s d =
        (((performAll project cs s' d').1.1, r :: (performAll project cs s' d').1.2),
          (performAll project cs s' d').2) := by
      rw [performAll, bind_apply, hrun]
      rfl
    rw [hwhole]
    refine ⟨hend, fun hshort => ?_⟩
    have hfirst : k.all.length ≤ 0x8000000000000000 := by
      rw [List.append_assoc, List.length_append] at hshort
      omega
    show r :: (performAll project cs s' d').1.2 = .ok (c.step k).2 :: (stepAll cs (c.step k).1).2.map .ok
    rw [hanswer hfirst, hanswers (Nat.le_trans hall.length_le hshort)]

end Follows

/-- What is to hold of a history after some calls: the timeline is that of the two stacks, as are the answers,
the history is loaded as it is, and the snapshots are those of the stacks. An index is a 64-bit number, so no
more activations than such a number can count are ever there to be loaded. -/
structure TwoStacks (project : Bytes) (calls : List Call) (s : Store)
    (answers : List (Except Failure (Option Entry))) (d : Desk) : Prop where
  index_ge : -1 ≤ s.timeline.index
  index_lt : s.timeline.index < s.timeline.entries.length
  entries_eq : s.timeline.entries = (stepAll calls {}).1.all.map Saved.entry
  index_eq : s.timeline.index = (stepAll calls {}).1.done.length - 1
  answers_eq : (calls.flatMap Call.recorded).length ≤ 0x8000000000000000 →
    answers = (stepAll calls {}).2.map .ok
  load_eq : (calls.flatMap Call.recorded).length ≤ 0x8000000000000000 →
    (Store.load project : ExceptT Failure (StateM Desk) Store).run d = (.ok s, d)
  snapshots : KeepsSnapshots (Store.homeOf project) (stepAll calls {}).1.all d.disk

/-- **A history is two stacks.** From a history without activations and without snapshots, and as long as no
change to the files is refused, any calls lead where they lead on the stacks. -/
theorem twoStacks_of_performAll {project : Bytes} (hproject : Path.isAbsolute project = true) {d₀ d : Desk}
    {s : Store} (hload : (Store.load project : ExceptT Failure (StateM Desk) Store).run d₀ = (.ok s, d))
    (hempty : s.timeline.entries = [])
    (hnone : ∀ p, Store.snapshotsAt (Store.homeOf project) <+: p → d.disk.content? p = none)
    {calls : List Call} (hnew : Recordable (calls.flatMap Call.recorded))
    (hsmooth : Smooth (performAll project calls s) d) :
    TwoStacks project calls (performAll project calls s d).1.1 (performAll project calls s d).1.2
      (performAll project calls s d).2 := by
  obtain ⟨hfollows, hanswers⟩ := (Follows.of_load hproject hload hempty hnone).run hproject calls hnew hsmooth
  have hle := (performAll project calls s d).1.1.timeline.done_le
  refine ⟨?_, ?_, hfollows.shows.entries_eq, ?_, hanswers, fun hshort => ?_, hfollows.snapshots⟩
  · rw [Timeline.index]
    omega
  · rw [Timeline.index]
    omega
  · rw [Timeline.index, hfollows.shows.done_eq]
  · exact hfollows.load hproject (Nat.le_trans (all_stepAll_sublist calls {}).length_le hshort)

/-- An activation of a test file. -/
def sampleRecord (id before : Bytes) : Call :=
  .record { path := "/t.js", backup := "/t.js.backup", name := "a", scan := "brace" } id 1 before

/-- Two activations are recorded and undone, one is repeated, and another takes the place of the other. -/
def sampleCalls : List Call :=
  [.undo, sampleRecord "op-1" "x", sampleRecord "op-2" "y", .reload, .undo, .rewind, .redo, .reload,
    sampleRecord "op-3" "z", .advance, .undo, .reload]

/-- A desk with an empty history. -/
def emptyDesk : Desk := { disk := { entries := [([".focus"], .folder 0o755)] } }

theorem twoStacks_of_performAll_branched :
    let s : Store := ⟨"/.focus", .empty⟩
    let r := performAll "/" sampleCalls s emptyDesk
    (Store.load "/" : ExceptT Failure (StateM Desk) Store).run emptyDesk = (.ok s, emptyDesk) ∧
      r.1.1.timeline.index = 0 ∧ r.1.1.timeline.entries.map Entry.id = [Bytes.ofString "op-1", "op-3"] ∧
      TwoStacks "/" sampleCalls r.1.1 r.1.2 r.2 := by
  have hload : (Store.load "/" : ExceptT Failure (StateM Desk) Store).run emptyDesk =
      (.ok ⟨"/.focus", .empty⟩, emptyDesk) := rfl
  have hnone : ∀ p, Store.snapshotsAt (Store.homeOf "/") <+: p → emptyDesk.disk.content? p = none := by
    intro p hp
    have hne : p ≠ [] ∧ p ≠ [Bytes.ofString ".focus"] := by
      constructor <;> rintro rfl <;> revert hp <;> decide
    have hlookup : emptyDesk.disk.entries.lookup p = none := by
      rw [emptyDesk, List.lookup_cons, beq_false_of_ne hne.2]
      rfl
    rw [Disk.content?, Disk.get?_of_ne_nil _ hne.1, hlookup]
  have hsmooth : Smooth (performAll "/" sampleCalls ⟨"/.focus", .empty⟩) emptyDesk := by
    rw [Smooth]
    decide +kernel
  have hend : (performAll "/" sampleCalls ⟨"/.focus", .empty⟩ emptyDesk).1.1.timeline.index = 0 ∧
      (performAll "/" sampleCalls ⟨"/.focus", .empty⟩ emptyDesk).1.1.timeline.entries.map Entry.id =
        [Bytes.ofString "op-1", "op-3"] := by decide +kernel
  exact ⟨hload, hend.1, hend.2, twoStacks_of_performAll rfl hload rfl hnone (by decide +kernel) hsmooth⟩

end Spotlight.History
