import Spotlight.Proofs.History.Store

/-!
# Recording an activation

* `History.Store.fileAt`, `History.Store.snapshotAt` — the places of a history in its folder;
* `History.Store.cleared_of_removeSnapshots` — only snapshots are removed;
* `History.Store.Recorded` — what recording an activation does to the disk;
* `History.Store.recorded_of_record` — an activation is recorded unless something is refused.
-/

namespace Spotlight.History

open Files Session

namespace Store

/-! ### The places of a history -/

/-- The place of the timeline, by the place of the history. -/
def fileAt (home : Place) : Place := home ++ [Bytes.ofString "state.json"]

/-- The place of a snapshot, by the place of the history. -/
def snapshotAt (home : Place) (id : Bytes) : Place := home ++ [Bytes.ofString "snapshots", id]

theorem isName_stateJson : Path.IsName "state.json" := ⟨by decide, by decide, by decide, by decide⟩

theorem isName_snapshots : Path.IsName "snapshots" := ⟨by decide, by decide, by decide, by decide⟩

theorem isName_folderName : Path.IsName folderName := ⟨by decide, by decide, by decide, by decide⟩

theorem fileAt_ne_snapshotAt (home : Place) (id : Bytes) : fileAt home ≠ snapshotAt home id := by
  intro h
  have hlen := congrArg List.length h
  rw [fileAt, snapshotAt, List.length_append, List.length_append] at hlen
  simp at hlen

theorem snapshotAt_inj {home : Place} {id id' : Bytes} (h : snapshotAt home id = snapshotAt home id') :
    id = id' := by
  have hrest := List.append_cancel_left h
  simpa using hrest

theorem home_prefix_fileAt (home : Place) : home <+: fileAt home := List.prefix_append _ _

theorem home_prefix_snapshotAt (home : Place) (id : Bytes) : home <+: snapshotAt home id :=
  List.prefix_append _ _

section

variable {s : Store} {home : Place} (hhome : ∀ c ∈ home, Path.IsName c)
  (hfolder : s.folder = Path.ofComponents true home)

include hhome

theorem isName_of_mem_fileAt : ∀ c ∈ fileAt home, Path.IsName c := by
  intro c hc
  rw [fileAt, List.mem_append, List.mem_singleton] at hc
  rcases hc with hc | rfl
  · exact hhome c hc
  · exact isName_stateJson

theorem isName_of_mem_snapshotAt {id : Bytes} (hid : Path.IsName id) :
    ∀ c ∈ snapshotAt home id, Path.IsName c := by
  intro c hc
  rw [snapshotAt, List.mem_append] at hc
  rcases hc with hc | hc
  · exact hhome c hc
  · simp only [List.mem_cons, List.not_mem_nil, or_false] at hc
    rcases hc with rfl | rfl
    · exact isName_snapshots
    · exact hid

include hfolder

theorem fileIn_eq : fileIn s.folder = Path.ofComponents true (fileAt home) := by
  rw [fileIn, hfolder, Path.join_eq (by simp) isName_stateJson, Path.components_ofComponents hhome, fileAt]

theorem snapshotFolder_eq : s.snapshotFolder = Path.ofComponents true (home ++ [Bytes.ofString "snapshots"]) := by
  rw [snapshotFolder, hfolder, Path.join_eq (by simp) isName_snapshots, Path.components_ofComponents hhome]

theorem snapshotPath_eq {id : Bytes} (hid : Path.IsName id) :
    s.snapshotPath id = Path.ofComponents true (snapshotAt home id) := by
  have hnames : ∀ c ∈ home ++ [Bytes.ofString "snapshots"], Path.IsName c := by
    intro c hc
    rw [List.mem_append, List.mem_singleton] at hc
    rcases hc with hc | rfl
    · exact hhome c hc
    · exact isName_snapshots
  rw [snapshotPath, snapshotFolder_eq hhome hfolder, Path.clean_append (by simp) hid,
    Path.components_ofComponents hnames, snapshotAt, List.append_assoc]
  rfl

theorem eq_fileAt_of_locate {d : Disk} {p : Place} (h : d.locate (fileIn s.folder) = .ok p) : p = fileAt home := by
  rw [fileIn_eq hhome hfolder] at h
  exact Disk.locate_ofComponents (by simp [fileAt]) (isName_of_mem_fileAt hhome) h

theorem eq_snapshotAt_of_locate {d : Disk} {id : Bytes} (hid : Path.IsName id) {p : Place}
    (h : d.locate (s.snapshotPath id) = .ok p) : p = snapshotAt home id := by
  rw [snapshotPath_eq hhome hfolder hid] at h
  exact Disk.locate_ofComponents (by simp [snapshotAt]) (isName_of_mem_snapshotAt hhome hid) h

end

/-! ### Opening a history -/

/-- The place of the history of a project. -/
def homeOf (project : Bytes) : Place := Path.components project ++ [folderName]

theorem isName_of_mem_homeOf {project : Bytes} (h : Path.isAbsolute project = true) :
    ∀ c ∈ homeOf project, Path.IsName c := by
  intro c hc
  rw [homeOf, List.mem_append, List.mem_singleton] at hc
  rcases hc with hc | rfl
  · exact Path.isName_of_mem_components h c hc
  · exact isName_folderName

theorem folderOf_eq {project : Bytes} (h : Path.isAbsolute project = true) :
    folderOf project = Path.ofComponents true (homeOf project) :=
  Path.join_eq h isName_folderName

/-- Opening a history makes its folder and loads its timeline. -/
theorem exists_of_load {project : Bytes} (hproject : Path.isAbsolute project = true) {d d' : Desk} {s : Store}
    (h : (load project : ExceptT Failure (StateM Desk) Store).run d = (.ok s, d')) :
    ∃ disk, d.disk.makeFolders (Path.ofComponents true (homeOf project)) = .ok disk ∧
      d' = { d with disk := disk } ∧ s.folder = Path.ofComponents true (homeOf project) ∧ s.IsStored d' := by
  rw [load, folderOf_eq hproject, Session.run_bind, run_during, run_lift, makeFolders_apply] at h
  cases hmake : d.disk.makeFolders (Path.ofComponents true (homeOf project)) with
  | error fault =>
    have hchange : Desk.change (·.makeFolders (Path.ofComponents true (homeOf project))) d =
        (.error fault, { d with refused := d.refused ++ [fault] }) := change_of_error hmake
    rw [hchange] at h
    cases h
  | ok disk =>
    have hchange : Desk.change (·.makeFolders (Path.ofComponents true (homeOf project))) d =
        (.ok (), { d with disk := disk }) := change_of_ok hmake
    rw [hchange] at h
    dsimp only [mapError_ok] at h
    rw [Session.run_bind] at h
    rcases hload : (loadTimeline (fileIn (Path.ofComponents true (homeOf project))) :
      ExceptT Failure (StateM Desk) Timeline).run { d with disk := disk } with ⟨failure | t, d₁⟩
    · rw [hload] at h
      cases h
    · have hdesk : d₁ = { d with disk := disk } := by
        have hrun := run_loadTimeline (fileIn (Path.ofComponents true (homeOf project))) { d with disk := disk }
        exact congrArg Prod.snd (hload.symm.trans hrun)
      subst hdesk
      rw [hload] at h
      cases h
      exact ⟨disk, rfl, rfl, rfl, hload⟩

/-- Where the folder of a history is there, opening the history loads its timeline and changes nothing. -/
theorem run_load_of_isFolderAt {project : Bytes} (hproject : Path.isAbsolute project = true) {d : Desk}
    (hfolders : ∀ n ≤ (homeOf project).length, d.disk.isFolderAt ((homeOf project).take n) = true) :
    (load project : ExceptT Failure (StateM Desk) Store).run d =
      (((loadTimeline (fileIn (folderOf project)) : ExceptT Failure (StateM Desk) Timeline).run d).1.map
        (Store.mk (folderOf project)), d) := by
  have hmake : d.disk.makeFolders (folderOf project) = .ok d.disk := by
    rw [folderOf_eq hproject]
    exact Disk.makeFolders_of_isFolderAt (isName_of_mem_homeOf hproject) hfolders
  have hchange : Desk.change (·.makeFolders (folderOf project)) d = (.ok (), d) := change_of_ok hmake
  obtain ⟨r, hr⟩ : ∃ r,
      (loadTimeline (fileIn (folderOf project)) : ExceptT Failure (StateM Desk) Timeline).run d = (r, d) :=
    ⟨_, run_loadTimeline _ d⟩
  rw [load, Session.run_bind, run_during, run_lift, makeFolders_apply, hchange]
  dsimp only [mapError_ok]
  rw [Session.run_bind, hr]
  cases r <;> rfl

/-- Where the folder of a history was made and its timeline can be loaded, it can be written as well. -/
theorem slot_of_loaded {project : Bytes} (hproject : Path.isAbsolute project = true) {d disk : Disk} {s : Store}
    {t : Timeline} (hmake : d.makeFolders (Path.ofComponents true (homeOf project)) = .ok disk)
    (hfolder : s.folder = Path.ofComponents true (homeOf project))
    (hload : loaded (fileIn s.folder) (disk.read (fileIn s.folder)) = .ok t) :
    disk.slot (fileIn s.folder) = .ok (fileAt (homeOf project)) := by
  have hhome := isName_of_mem_homeOf hproject
  have hnames := isName_of_mem_fileAt hhome
  obtain ⟨-, hfolders⟩ := Disk.paved_of_makeFolders hhome hmake
  rw [fileIn_eq hhome hfolder] at hload ⊢
  have hlast := Path.getLast?_ofComponents (by simp [fileAt]) hnames
  have hway : ∀ n < (fileAt (homeOf project)).length, disk.isFolderAt ((fileAt (homeOf project)).take n) = true := by
    intro n hn
    have hle : n ≤ (homeOf project).length := by
      rw [fileAt, List.length_append, List.length_singleton] at hn
      omega
    rw [fileAt, List.take_append_of_le_length hle]
    exact hfolders n hle
  rcases Disk.locate_of_isFolderAt (by simp [fileAt]) hnames hway with hlocate | ⟨r, hlocate, hr⟩
  · refine Disk.slot_eq_ok_iff.2 ⟨hlast, hlocate, ?_⟩
    cases hget : disk.get? (fileAt (homeOf project)) with
    | none => rw [Disk.isFolderAt, hget]
    | some e => cases e with
      | file mode content => rw [Disk.isFolderAt, hget]
      | folder mode =>
        have hread : disk.read (Path.ofComponents true (fileAt (homeOf project))) =
            .error ⟨.read, Path.ofComponents true (fileAt (homeOf project)), .isFolder⟩ := by
          simp only [Disk.read, Disk.find, hlocate, bind, Except.bind, hget]
        rw [hread] at hload
        cases hload
  · have hread : disk.read (Path.ofComponents true (fileAt (homeOf project))) =
        .error ⟨.access, Path.ofComponents true (fileAt (homeOf project)), r⟩ := by
      simp only [Disk.read, Disk.find, hlocate, bind, Except.bind]
    have hmissing : ¬ (Fault.mk .access (Path.ofComponents true (fileAt (homeOf project))) r).isMissing = true := by
      simpa [Fault.isMissing] using hr
    rw [hread, loaded, if_neg hmissing] at hload
    cases hload

/-- The history that was opened can be written. -/
theorem slot_of_load {project : Bytes} (hproject : Path.isAbsolute project = true) {d d' : Desk} {s : Store}
    (h : (load project : ExceptT Failure (StateM Desk) Store).run d = (.ok s, d')) :
    d'.disk.slot (fileIn s.folder) = .ok (fileAt (homeOf project)) := by
  obtain ⟨disk, hmake, rfl, hfolder, hstored⟩ := exists_of_load hproject h
  rw [IsStored, run_loadTimeline, Prod.mk.injEq] at hstored
  exact slot_of_loaded hproject hmake hfolder hstored.1

/-! ### Removing snapshots -/

/-- What removing snapshots comes to: they are gone, and nothing else has changed. -/
structure Cleared (home : Place) (ids : List Bytes) (d d' : Disk) : Prop where
  here_eq : d'.here = d.here
  isFolderAt_eq : ∀ r, d'.isFolderAt r = d.isFolderAt r
  get?_eq : ∀ r, (∀ id ∈ ids, r ≠ snapshotAt home id) → d'.get? r = d.get? r
  gone : ∀ id ∈ ids, d'.get? (snapshotAt home id) = none

theorem grows_removeSnapshots (s : Store) (es : List Entry) :
    Grows (s.removeSnapshots es : StateM Desk Unit) := by
  induction es with
  | nil => exact grows_pure _
  | cons e es ih => exact grows_bind (grows_change _) fun _ => ih

theorem cleared_of_removeSnapshots {s : Store} {home : Place} (hhome : ∀ c ∈ home, Path.IsName c)
    (hfolder : s.folder = Path.ofComponents true home) {es : List Entry} {d : Desk}
    (hes : ∀ e ∈ es, Path.IsName e.id ∧ d.disk.isFolderAt (snapshotAt home e.id) = false)
    (hsmooth : Smooth (s.removeSnapshots es) d) :
    ∃ disk, (s.removeSnapshots es : StateM Desk Unit) d = ((), { d with disk := disk }) ∧
      Cleared home (es.map Entry.id) d.disk disk := by
  induction es generalizing d with
  | nil => exact ⟨d.disk, rfl, rfl, fun _ => rfl, fun _ _ => rfl, by simp⟩
  | cons e es ih =>
    obtain ⟨hremove, hrest⟩ := hsmooth.bind (grows_change _) fun _ => grows_removeSnapshots s es
    obtain ⟨disk, hdisk, hchange⟩ := hremove.change
    obtain ⟨p, hp, rfl⟩ := Disk.exists_of_remove hdisk
    obtain ⟨hname, hfile⟩ := hes e (by simp)
    obtain rfl := eq_snapshotAt_of_locate hhome hfolder hname hp
    have hagree := Disk.AgreeOff.erase hfile
    rw [remove_apply, hchange] at hrest
    obtain ⟨disk, hrun, hcleared⟩ := ih (d := { d with disk := d.disk.erase (snapshotAt home e.id) })
      (fun e' he' => ⟨(hes e' (by simp [he'])).1, by
        rw [hagree.isFolderAt_eq]
        exact (hes e' (by simp [he'])).2⟩) hrest
    refine ⟨disk, ?_, ?_⟩
    · rw [removeSnapshots, bind_apply, remove_apply, hchange]
      exact hrun
    · refine ⟨hcleared.here_eq, fun r => ?_, fun r hr => ?_, fun id hid => ?_⟩
      · rw [hcleared.isFolderAt_eq, hagree.isFolderAt_eq]
      · rw [List.map_cons, List.forall_mem_cons] at hr
        rw [hcleared.get?_eq r hr.2, hagree.get?_eq r hr.1]
      · by_cases hlater : id ∈ es.map Entry.id
        · exact hcleared.gone id hlater
        · rw [List.map_cons, List.mem_cons, or_iff_left hlater] at hid
          subst hid
          have hkept : ∀ id' ∈ es.map Entry.id, snapshotAt home e.id ≠ snapshotAt home id' :=
            fun id' hid' heq => hlater (snapshotAt_inj heq ▸ hid')
          rw [hcleared.get?_eq _ hkept]
          exact (Disk.get?_erase _ (Disk.ne_nil_of_isFolderAt hfile) _).trans (if_pos rfl)

/-! ### Writing a snapshot -/

theorem grows_writeSnapshot (s : Store) (id before : Bytes) :
    Grows (s.writeSnapshot id before : ExceptT Failure (StateM Desk) Unit).run :=
  grows_run_bind (grows_during (grows_lift (grows_change _)) _)
    fun _ => grows_during (grows_lift (grows_change _)) _

theorem grows_move (s : Store) (t : Timeline) : Grows (s.move t : StateM Desk _) :=
  grows_bind (grows_lift (grows_change _)) fun _ => grows_pure _

/-- What writing a snapshot comes to: it is there, and no other file has changed. -/
structure Snapped (home : Place) (id before : Bytes) (d d' : Disk) : Prop where
  evolves : Disk.Evolves d d'
  snapshot : d'.content? (snapshotAt home id) = some before
  content?_eq : ∀ r, r ≠ snapshotAt home id → d'.content? r = d.content? r
  get?_fileAt : d'.get? (fileAt home) = d.get? (fileAt home)

theorem snapped_of_writeSnapshot {s : Store} {home : Place} (hhome : ∀ c ∈ home, Path.IsName c)
    (hfolder : s.folder = Path.ofComponents true home) {id before : Bytes} (hid : Path.IsName id) {d : Desk}
    (hsmooth : Smooth (s.writeSnapshot id before : ExceptT Failure (StateM Desk) Unit).run d) :
    ∃ disk, (s.writeSnapshot id before : ExceptT Failure (StateM Desk) Unit).run d =
        (.ok (), { d with disk := disk }) ∧ disk.locate (s.snapshotPath id) = .ok (snapshotAt home id) ∧
      Snapped home id before d.disk disk := by
  obtain ⟨hmake, hwrite⟩ := hsmooth.run_bind (grows_during (grows_lift (grows_change _)) _)
    fun _ => grows_during (grows_lift (grows_change _)) _
  obtain ⟨paved, hpaved, hchange⟩ := hmake.of_during.of_lift.change
  have hfirst : (during "could not create snapshot directory"
      (Files.lift (MonadFiles.makeFolders s.snapshotFolder)) : ExceptT Failure (StateM Desk) Unit).run d =
        (.ok (), { d with disk := paved }) := by
    rw [run_during, run_lift, makeFolders_apply, hchange]
    rfl
  obtain ⟨disk, hdisk, hchange'⟩ := (hwrite () _ hfirst).of_during.of_lift.change
  rw [snapshotFolder_eq hhome hfolder] at hpaved
  have hnames : ∀ c ∈ home ++ [Bytes.ofString "snapshots"], Path.IsName c := by
    intro c hc
    rw [List.mem_append, List.mem_singleton] at hc
    rcases hc with hc | rfl
    · exact hhome c hc
    · exact isName_snapshots
  obtain ⟨hway, -⟩ := Disk.paved_of_makeFolders hnames hpaved
  obtain ⟨p, mode, hslot, rfl⟩ := Disk.exists_of_overwrite hdisk
  obtain ⟨-, hlocate, hfile⟩ := Disk.slot_eq_ok_iff.1 hslot
  obtain rfl := eq_snapshotAt_of_locate hhome hfolder hid hlocate
  have hset := Disk.AgreeOff.set hfile mode before
  refine ⟨_, ?_, hset.locate_iff.2 hlocate, ?_⟩
  · rw [writeSnapshot, Session.run_bind, hfirst]
    dsimp only
    rw [run_during, run_lift, overwrite_apply, hchange']
    rfl
  · refine ⟨hway.evolves.trans (.of_agreeOff hset), ?_, fun r hr => ?_, ?_⟩
    · rw [Disk.content?_set _ hfile, if_pos rfl]
    · rw [hset.content?_eq hr, hway.content?_eq]
    · rw [hset.get?_eq _ (fileAt_ne_snapshotAt home id), hway.get?_eq]
      intro hprefix
      rw [fileAt, List.prefix_append_right_inj] at hprefix
      revert hprefix
      decide

/-! ### The timeline with the record -/

section

variable {t : Timeline} {e x : Entry}

theorem record_dropUndone (t : Timeline) (e : Entry) : t.dropUndone.record e = t.record e := by
  simp [Timeline.record, Timeline.dropUndone, List.take_take]

/-- The activations in force after one was recorded. -/
theorem take_record (t : Timeline) (e : Entry) :
    (t.record e).entries.take (t.record e).done = t.entries.take t.done ++ [e] := by
  have hle : (t.entries.take t.done ++ [e]).length ≤ t.done + 1 := by
    rw [List.length_append, List.length_take, List.length_singleton]
    omega
  exact List.take_of_length_le hle

/-- A recorded activation is the new one, behind all in force, or one in force that stays where it was. -/
theorem record_cases {earlier later : List Entry} (h : (t.record e).entries = earlier ++ x :: later) :
    (earlier = t.entries.take t.done ∧ x = e) ∨
      (x ∈ t.entries.take t.done ∧ ∃ later', t.entries = earlier ++ x :: later') := by
  have hentries : t.entries.take t.done ++ [e] = earlier ++ x :: later := h
  rcases List.eq_nil_or_concat later with rfl | ⟨later, y, rfl⟩
  · obtain ⟨hearlier, hx⟩ := List.append_inj' hentries rfl
    exact .inl ⟨hearlier.symm, (List.cons.inj hx).1.symm⟩
  · rw [List.concat_eq_append, ← List.cons_append, ← List.append_assoc] at hentries
    obtain ⟨hkept, -⟩ := List.append_inj' hentries rfl
    refine .inr ⟨?_, later ++ t.undone, ?_⟩
    · rw [hkept]
      exact List.mem_append_right _ List.mem_cons_self
    · rw [← List.cons_append, ← List.append_assoc, ← hkept]
      exact (List.take_append_drop _ _).symm

theorem id_ne_of_undone (h : (t.entries.map Entry.id).Nodup) (hx : x ∈ t.entries.take t.done)
    {u : Entry} (hu : u ∈ t.undone) : x.id ≠ u.id := by
  rw [← List.take_append_drop t.done t.entries, List.map_append, List.nodup_append] at h
  exact h.2.2 _ (List.mem_map_of_mem hx) _ (List.mem_map_of_mem hu)

/-- Names stay different if the new one is. -/
theorem nodup_record (h : (t.entries.map Entry.id).Nodup) (hfresh : ∀ u ∈ t.entries, u.id ≠ e.id) :
    ((t.record e).entries.map Entry.id).Nodup := by
  show ((t.entries.take t.done ++ [e]).map Entry.id).Nodup
  rw [List.map_append, List.nodup_append]
  refine ⟨h.sublist ((List.take_sublist _ _).map _), by simp, ?_⟩
  intro id hmem id' hmem' heq
  obtain ⟨u, hu, rfl⟩ := List.mem_map.1 hmem
  exact hfresh u (List.mem_of_mem_take hu) (heq.trans (List.mem_singleton.1 hmem'))

end

/-! ### The whole record -/

theorem grows_record (s : Store) (e : Entry) (before : Bytes) :
    Grows (s.record e before : StateM Desk _) := by
  refine grows_bind (grows_bind (grows_removeSnapshots s _) fun _ => grows_pure _) fun s' => ?_
  refine grows_bind (grows_writeSnapshot s' e.id before) fun r => ?_
  cases r with
  | error failure => exact grows_pure _
  | ok _ => exact grows_move s' _

/-- What recording an activation does to the disk: the snapshot is there, the timeline is written, the
snapshots of the undone activations are gone, and nothing else has changed. -/
structure Recorded (home : Place) (s : Store) (e : Entry) (before : Bytes) (d d' : Disk) : Prop where
  evolves : Disk.Evolves d d'
  located : d'.locate (s.snapshotPath e.id) = .ok (snapshotAt home e.id)
  snapshot : d'.content? (snapshotAt home e.id) = some before
  gone : ∀ u ∈ s.timeline.undone, u.id ≠ e.id → d'.content? (snapshotAt home u.id) = none
  elsewhere : ∀ r, r ≠ fileAt home → r ≠ snapshotAt home e.id →
    (∀ u ∈ s.timeline.undone, r ≠ snapshotAt home u.id) → d'.content? r = d.content? r
  slot_eq : d'.slot (fileIn s.folder) = .ok (fileAt home)
  saved : d'.read (fileIn s.folder) = .ok (s.timeline.record e).text

namespace Recorded

variable {home : Place} {s : Store} {e : Entry} {before : Bytes} {d d' : Disk}

/-- Nothing changes outside the history. -/
theorem outside (h : Recorded home s e before d d') (r : Place) (hr : ¬ home <+: r) :
    d'.content? r = d.content? r := by
  refine h.elsewhere r ?_ ?_ fun u _ => ?_
  · rintro rfl
    exact hr (home_prefix_fileAt home)
  · rintro rfl
    exact hr (home_prefix_snapshotAt home e.id)
  · rintro rfl
    exact hr (home_prefix_snapshotAt home u.id)

/-- The snapshots of other activations stay. -/
theorem kept (h : Recorded home s e before d d') (id : Bytes) (hu : ∀ u ∈ s.timeline.undone, id ≠ u.id)
    (he : id ≠ e.id) : d'.content? (snapshotAt home id) = d.content? (snapshotAt home id) :=
  h.elsewhere _ (Ne.symm (fileAt_ne_snapshotAt home id)) (fun heq => he (snapshotAt_inj heq))
    fun u hmem heq => hu u hmem (snapshotAt_inj heq)

end Recorded

/-- An activation is recorded unless something is refused. -/
theorem recorded_of_record {s : Store} {home : Place} (hhome : ∀ c ∈ home, Path.IsName c)
    (hfolder : s.folder = Path.ofComponents true home) {e : Entry} (hid : Path.IsName e.id) {before : Bytes}
    {d : Desk} (hundone : ∀ u ∈ s.timeline.undone,
      Path.IsName u.id ∧ d.disk.isFolderAt (snapshotAt home u.id) = false)
    (hslot : d.disk.slot (fileIn s.folder) = .ok (fileAt home)) (hsmooth : Smooth (s.record e before) d) :
    ∃ disk, (s.record e before : StateM Desk _) d =
        (({ s with timeline := s.timeline.record e }, .ok ()), { d with disk := disk }) ∧
      Recorded home s e before d.disk disk := by
  obtain ⟨hlast, hlocate, hfile⟩ := Disk.slot_eq_ok_iff.1 hslot
  -- The undone activations go first, then the snapshot is written, then the timeline.
  obtain ⟨hdrop, hrest⟩ := hsmooth.bind (grows_bind (grows_removeSnapshots s _) fun _ => grows_pure _)
    fun s' => grows_bind (grows_writeSnapshot s' e.id before) fun r => by
      cases r with
      | error failure => exact grows_pure _
      | ok _ => exact grows_move s' _
  obtain ⟨hremove, -⟩ := hdrop.bind (grows_removeSnapshots s _) fun _ => grows_pure _
  obtain ⟨d₁, hrun₁, hcleared⟩ := cleared_of_removeSnapshots hhome hfolder hundone hremove
  have hdropped : (s.dropUndone : StateM Desk Store) d =
      ({ s with timeline := s.timeline.dropUndone }, { d with disk := d₁ }) := by
    rw [dropUndone, bind_apply, hrun₁]
    rfl
  rw [hdropped] at hrest
  dsimp only at hrest
  obtain ⟨hsnap, -⟩ := hrest.bind (grows_writeSnapshot _ e.id before) fun r => by
    cases r with
    | error failure => exact grows_pure _
    | ok _ => exact grows_move _ _
  obtain ⟨d₂, hrun₂, hlocated, hsnapped⟩ := snapped_of_writeSnapshot
    (s := { s with timeline := s.timeline.dropUndone }) hhome hfolder hid hsnap
  have hevolves₁ : Disk.Evolves d.disk d₁ := ⟨hcleared.here_eq, fun r hr => by rw [hcleared.isFolderAt_eq, hr]⟩
  have hget₂ : d₂.get? (fileAt home) = d.disk.get? (fileAt home) := by
    rw [hsnapped.get?_fileAt, hcleared.get?_eq _ fun id _ => fileAt_ne_snapshotAt home id]
  have hslot₂ : d₂.slot (fileIn s.folder) = .ok (fileAt home) :=
    Disk.slot_eq_ok_iff.2 ⟨hlast, (hevolves₁.trans hsnapped.evolves).locate hlocate, by
      rw [Disk.isFolderAt_of_get? hget₂, hfile]⟩
  obtain ⟨mode, hmove⟩ := move_apply (s := { s with timeline := s.timeline.dropUndone })
    (d := { d with disk := d₂ }) hslot₂ (s.timeline.dropUndone.record e)
  have hfile₂ := (Disk.slot_eq_ok_iff.1 hslot₂).2.2
  have hset := Disk.AgreeOff.set hfile₂ mode (s.timeline.record e).text
  rw [record_dropUndone] at hmove
  refine ⟨d₂.set (fileAt home) (.file mode (s.timeline.record e).text), ?_, ?_⟩
  · rw [record, bind_apply, hdropped]
    dsimp only
    rw [bind_apply, hrun₂]
    dsimp only
    rw [record_dropUndone, hmove]
  · refine ⟨(hevolves₁.trans hsnapped.evolves).trans (.of_agreeOff hset), hset.locate_iff.2 hlocated, ?_,
      fun u hu hue => ?_, fun r hr hre hru => ?_, hset.slot_iff.2 hslot₂, Disk.read_set hslot₂ _ _⟩
    · rw [hset.content?_eq (Ne.symm (fileAt_ne_snapshotAt home e.id)), hsnapped.snapshot]
    · rw [hset.content?_eq (Ne.symm (fileAt_ne_snapshotAt home u.id)),
        hsnapped.content?_eq _ (fun heq => hue (snapshotAt_inj heq)), Disk.content?,
        hcleared.gone u.id (List.mem_map_of_mem hu)]
    · rw [hset.content?_eq hr, hsnapped.content?_eq r hre, Disk.content?_of_get?]
      apply hcleared.get?_eq
      intro id hmem
      obtain ⟨u, hu, rfl⟩ := List.mem_map.1 hmem
      exact hru u hu

end Store

end Spotlight.History
