import Spotlight.Proofs.Files.Frail
import Spotlight.Proofs.History.Stacks
import Spotlight.Proofs.Json.Cut

/-!
# Histories on a frail disk

A call of a history may fail at any change it makes to the files. What is then listed in the history file still has
its snapshots, with one exception: a new activation takes the snapshots of the undone ones away before the list
without them is written.

* `History.Timeline.entries_of_parse_take` — a part of the text of a timeline lists nothing, or all of it;
* `History.actAll` — calls on any files, and the snapshots that failed ones have left missing;
* `History.AllKept`, `History.Guarded` — the activations that are held in memory and those that are listed have their
  snapshots;
* `History.Prepared` — what has changed before the list with a new activation is written;
* `History.Guarded.record`, `History.Guarded.step`, `History.Guarded.run` — recording keeps that up, and so does every
  call and every run;
* `History.snapshots_of_actAll` — what is listed after some calls has its snapshots.
-/

namespace Spotlight.History

open Files Session

/-! ### The text of a timeline -/

namespace Timeline

theorem head?_text (t : Timeline) : t.text.head? = some Bytes.lbrace := rfl

/-- A text that was broken off lists nothing. -/
theorem entries_of_parse_take {t : Timeline} {n : Nat} {stored : Stored} (h : parse (t.text.take n) = some stored) :
    stored.1 = t.entries.map Entry.repaired := by
  by_cases hn : n < t.text.length
  · have hnone : Json.parse (t.text.take n) = none := Json.parse_take_print t.fits_toJson t.head?_text hn
    rw [parse, hnone] at h
    cases h
  · rw [List.take_of_length_le (Nat.le_of_not_lt hn), parse_text] at h
    obtain ⟨-, heq⟩ := Option.ite_none_right_eq_some.1 h
    cases heq
    rfl

end Timeline

/-! ### Calls on any files -/

section Calls

variable {m : Type → Type} [Monad m] [MonadFiles m]

/-- The snapshots that are missing when a new activation could not be recorded: those of the undone ones, which were
to be dropped. -/
def Store.abandoned {α : Type} (s : Store) : Except Failure α → List Bytes
  | .error _ => s.timeline.undone.map Entry.id
  | .ok _ => []

theorem Store.abandoned_map {α β : Type} (s : Store) (g : α → β) (r : Except Failure α) :
    s.abandoned (r.map g) = s.abandoned r := by
  cases r <;> rfl

/-- The snapshots that are missing after a call that answered `r`. -/
def Call.abandons (s : Store) (r : Except Failure (Option Entry)) : Call → List Bytes
  | .record .. => s.abandoned r
  | _ => []

/-- Performs some calls one after the other, and tells which snapshots failed ones have left missing. -/
def actAll (project : Bytes) : List Call → Store → m (Store × List Bytes)
  | [], s => return (s, [])
  | c :: cs, s => do
    let (s', r) ← c.act project s
    let (s'', lost) ← actAll project cs s'
    return (s'', c.abandons s r ++ lost)

end Calls

/-! ### What is kept -/

/-- Do all these entries tell of activations that were recorded, each with its snapshot, unless that is lost? -/
structure AllKept (home : Place) (rs : List Saved) (lost : List Bytes) (d : Disk) (es : List Entry) : Prop where
  nodup : (es.map Entry.id).Nodup
  kept : ∀ e ∈ es, ∃ r ∈ rs, e.id = r.entry.id ∧ e.repaired = r.entry.repaired ∧
    (e.id ∈ lost ∨ d.content? (Store.snapshotAt home e.id) = some r.before)

namespace AllKept

variable {home : Place} {rs rs' : List Saved} {lost lost' : List Bytes} {d d' : Disk} {es es' : List Entry}

theorem nil (home : Place) (rs : List Saved) (lost : List Bytes) (d : Disk) : AllKept home rs lost d [] :=
  ⟨List.nodup_nil, fun _ he => absurd he List.not_mem_nil⟩

theorem sublist (h : AllKept home rs lost d es) (hsub : es'.Sublist es) : AllKept home rs lost d es' :=
  ⟨h.nodup.sublist (hsub.map _), fun e he => h.kept e (hsub.subset he)⟩

/-- Other snapshots may change, and more may be lost. -/
theorem mono (h : AllKept home rs lost d es) (hrs : rs ⊆ rs') (hlost : lost ⊆ lost')
    (hd : ∀ e ∈ es, e.id ∈ lost' ∨
      d'.content? (Store.snapshotAt home e.id) = d.content? (Store.snapshotAt home e.id)) :
    AllKept home rs' lost' d' es := by
  refine ⟨h.nodup, fun e he => ?_⟩
  obtain ⟨r, hr, hid, hrepaired, hkept⟩ := h.kept e he
  refine ⟨r, hrs hr, hid, hrepaired, ?_⟩
  rcases hd e he with hmem | heq
  · exact .inl hmem
  · rw [heq]
    exact hkept.imp_left fun hmem => hlost hmem

theorem more (h : AllKept home rs lost d es) (hrs : rs ⊆ rs') (hlost : lost ⊆ lost') : AllKept home rs' lost' d es :=
  h.mono hrs hlost fun _ _ => .inr rfl

theorem of_content? (h : AllKept home rs lost d es)
    (hd : ∀ id, d'.content? (Store.snapshotAt home id) = d.content? (Store.snapshotAt home id)) :
    AllKept home rs lost d' es :=
  h.mono (List.Subset.refl _) (List.Subset.refl _) fun e _ => .inr (hd e.id)

theorem isName (h : AllKept home rs lost d es) (hrs : Distinct rs) {e : Entry} (he : e ∈ es) : Path.IsName e.id := by
  obtain ⟨r, hr, hid, -⟩ := h.kept e he
  rw [hid]
  exact hrs.isName r hr

theorem id_ne (h : AllKept home rs lost d es) {id : Bytes} (hfresh : ∀ r ∈ rs, r.entry.id ≠ id) {e : Entry}
    (he : e ∈ es) : e.id ≠ id := by
  obtain ⟨r, hr, hid, -⟩ := h.kept e he
  rw [hid]
  exact hfresh r hr

/-- The entries are kept when they come out of a file. -/
theorem repaired (h : AllKept home rs lost d es) (hrs : Distinct rs) :
    AllKept home rs lost d (es.map Entry.repaired) := by
  have hid : ∀ e ∈ es, e.repaired.id = e.id := by
    intro e he
    obtain ⟨r, hr, hid, -⟩ := h.kept e he
    show Rune.repaired e.id = e.id
    rw [hid]
    exact Rune.repaired_of_isUtf8 (hrs.isUtf8 r hr)
  constructor
  · rw [List.map_map]
    have hids : es.map (Entry.id ∘ Entry.repaired) = es.map Entry.id := List.map_congr_left hid
    rw [hids]
    exact h.nodup
  · intro e he
    obtain ⟨e, hmem, rfl⟩ := List.mem_map.1 he
    rw [hid e hmem, Entry.repaired_repaired]
    exact h.kept e hmem

end AllKept

/-! ### Changes on a frail disk -/

namespace Store

variable {s : Store} {home : Place} (hhome : ∀ c ∈ home, Path.IsName c)
  (hfolder : s.folder = Path.ofComponents true home) (f : Frail)

/-- Recording removes the snapshots of the undone activations, writes the new one, and then writes the timeline. -/
theorem record_apply (e : Entry) (before : Bytes) :
    let s' : Store := { s with timeline := s.timeline.dropUndone }
    let x := (s'.writeSnapshot e.id before : ExceptT Failure (StateM Frail) Unit).run
      ((s.removeSnapshots s.timeline.undone : StateM Frail Unit) f).2
    (s.record e before : StateM Frail _) f =
      match x.1 with
      | .error failure => ((s', .error failure), x.2)
      | .ok _ => (s'.move (s.timeline.record e) : StateM Frail _) x.2 := by
  simp only [record, dropUndone, bind_apply, pure_apply, record_dropUndone]
  split
  · rename_i heq
    rw [heq]
    rfl
  · rename_i heq
    rw [heq]

theorem loadTimeline_apply (file : Bytes) :
    (loadTimeline file : ExceptT Failure (StateM Frail) Timeline).run f = (loaded file (f.disk.read file), f) := by
  rw [loadTimeline_eq]
  rfl

/-- Opening a history changes no file. Its folder is made, and its timeline is what its file then holds. -/
theorem load_cases (project : Bytes) :
    let x := (load project : ExceptT Failure (StateM Frail) Store).run f
    (∀ q, x.2.disk.content? q = f.disk.content? q) ∧ ∀ s, x.1 = .ok s →
      f.disk.makeFolders (folderOf project) = .ok x.2.disk ∧ s.folder = folderOf project ∧
        loaded (fileIn (folderOf project)) (x.2.disk.read (fileIn (folderOf project))) = .ok s.timeline := by
  obtain ⟨hcontent, hmake⟩ := f.makeFolders_cases (folderOf project)
  rw [load, run_bind, run_during, run_lift]
  rcases hrun : (MonadFiles.makeFolders (folderOf project) : StateM Frail _) f with ⟨fault | ⟨⟩, f'⟩
  · rw [hrun] at hcontent
    exact ⟨hcontent, fun s hs => by cases hs⟩
  · rw [hrun] at hcontent hmake
    dsimp only [mapError_ok]
    rw [run_bind, loadTimeline_apply]
    rcases hmake with ⟨-, hmake⟩ | ⟨fault, hfault⟩
    · cases hloaded : loaded (fileIn (folderOf project)) (f'.disk.read (fileIn (folderOf project))) with
      | error failure => exact ⟨hcontent, fun s hs => by cases hs⟩
      | ok t =>
        refine ⟨hcontent, fun s hs => ?_⟩
        cases hs
        exact ⟨hmake, rfl, hloaded⟩
    · cases hfault

include hhome hfolder

/-- Removing snapshots changes nothing else. -/
theorem content?_removeSnapshots {es : List Entry} (hnames : ∀ e ∈ es, Path.IsName e.id) {q : Place}
    (hq : ∀ e ∈ es, q ≠ snapshotAt home e.id) :
    ((s.removeSnapshots es : StateM Frail Unit) f).2.disk.content? q = f.disk.content? q := by
  induction es generalizing f with
  | nil => rfl
  | cons e es ih =>
    rw [List.forall_mem_cons] at hnames hq
    have hremove : f.disk.locate (s.snapshotPath e.id) ≠ .ok q :=
      fun hlocate => hq.1 (eq_snapshotAt_of_locate hhome hfolder hnames.1 hlocate)
    rw [removeSnapshots, bind_apply, ih _ hnames.2 hq.2, f.content?_remove _ hremove]

/-- A snapshot is written or not; nothing else changes. -/
theorem writeSnapshot_cases {id : Bytes} (hid : Path.IsName id) (before : Bytes) :
    let x := (s.writeSnapshot id before : ExceptT Failure (StateM Frail) Unit).run f
    (∀ q, q ≠ snapshotAt home id → x.2.disk.content? q = f.disk.content? q) ∧
      (x.1 = .ok () → x.2.disk.content? (snapshotAt home id) = some before) := by
  have hmake := (f.makeFolders_cases s.snapshotFolder).1
  rw [writeSnapshot, run_bind, run_during, run_lift]
  rcases hrun : (MonadFiles.makeFolders s.snapshotFolder : StateM Frail _) f with ⟨failure | ⟨⟩, f₁⟩
  · rw [hrun] at hmake
    exact ⟨fun q _ => hmake q, fun hok => by cases hok⟩
  · rw [hrun] at hmake
    have hwrite := f₁.overwrite_cases (s.snapshotPath id) before
    dsimp only [mapError_ok] at hmake hwrite ⊢
    rw [run_during, run_lift]
    rcases hrun' : (MonadFiles.overwrite (s.snapshotPath id) before : StateM Frail _) f₁ with ⟨r, f₂⟩
    rw [hrun'] at hwrite
    dsimp only at hwrite ⊢
    rcases hwrite with ⟨rfl, p, hp, hwrote⟩ | ⟨fault, rfl, hnone | ⟨p, n, hp, hwrote⟩⟩
    · obtain rfl := eq_snapshotAt_of_locate hhome hfolder hid hp
      refine ⟨fun q hq => ?_, fun _ => ?_⟩
      · rw [hwrote, if_neg hq, hmake]
      · rw [hwrote, if_pos rfl]
    · refine ⟨fun q _ => ?_, fun hok => by cases hok⟩
      rw [hnone, hmake]
    · obtain rfl := eq_snapshotAt_of_locate hhome hfolder hid hp
      refine ⟨fun q hq => ?_, fun hok => by cases hok⟩
      rw [hwrote, if_neg hq, hmake]

/-- Moving along the timeline writes its text or a part of it, or fails and writes nothing; the snapshots stay. -/
theorem move_cases (t : Timeline) :
    let x := (s.move t : StateM Frail _) f
    x.1.1 = { s with timeline := t } ∧
      (∀ id, x.2.disk.content? (snapshotAt home id) = f.disk.content? (snapshotAt home id)) ∧
      ((∃ n, x.2.disk.content? (fileAt home) = some (t.text.take n)) ∨
        (∃ failure, x.1.2 = .error failure) ∧ x.2.disk.content? (fileAt home) = f.disk.content? (fileAt home)) := by
  have hwrite := f.overwrite_cases (fileIn s.folder) t.text
  rw [move, bind_apply, save, run_lift]
  rcases hrun : (MonadFiles.overwrite (fileIn s.folder) t.text : StateM Frail _) f with ⟨r, f'⟩
  refine ⟨rfl, ?_⟩
  dsimp only at hwrite
  rw [hrun] at hwrite
  dsimp only [pure_apply] at hwrite ⊢
  rcases hwrite with ⟨rfl, p, hp, hwrote⟩ | ⟨fault, rfl, hnone | ⟨p, n, hp, hwrote⟩⟩
  · obtain rfl := eq_fileAt_of_locate hhome hfolder hp
    refine ⟨fun id => ?_, .inl ⟨t.text.length, ?_⟩⟩
    · rw [hwrote, if_neg (Ne.symm (fileAt_ne_snapshotAt home id))]
    · rw [hwrote, if_pos rfl, List.take_length]
  · exact ⟨fun id => by rw [hnone], .inr ⟨⟨_, rfl⟩, by rw [hnone]⟩⟩
  · obtain rfl := eq_fileAt_of_locate hhome hfolder hp
    refine ⟨fun id => ?_, .inl ⟨n, ?_⟩⟩
    · rw [hwrote, if_neg (Ne.symm (fileAt_ne_snapshotAt home id))]
    · rw [hwrote, if_pos rfl]

end Store

/-! ### Before the timeline is written -/

/-- The disk that a new activation is recorded on, before the timeline is written: the snapshots of the undone
activations may be gone, and that of the new one may be there. -/
structure Prepared (home : Place) (undone : List Entry) (id : Bytes) (d d' : Disk) : Prop where
  snapshots : ∀ id', id' ≠ id → id' ∉ undone.map Entry.id →
    d'.content? (Store.snapshotAt home id') = d.content? (Store.snapshotAt home id')
  file : d'.content? (Store.fileAt home) = d.content? (Store.fileAt home)

namespace Prepared

variable {home : Place} {rs : List Saved} {lost : List Bytes} {d d' : Disk} {s : Store} {t : Timeline} {e : Entry}
  {es : List Entry}

/-- What is done before the timeline is written. -/
theorem of_writeSnapshot (hhome : ∀ c ∈ home, Path.IsName c) (hfolder : s.folder = Path.ofComponents true home)
    (hnames : ∀ u ∈ s.timeline.undone, Path.IsName u.id) (hid : Path.IsName e.id) (before : Bytes) (f : Frail) :
    let x := ({ s with timeline := s.timeline.dropUndone }.writeSnapshot e.id before :
      ExceptT Failure (StateM Frail) Unit).run ((s.removeSnapshots s.timeline.undone : StateM Frail Unit) f).2
    Prepared home s.timeline.undone e.id f.disk x.2.disk ∧
      (x.1 = .ok () → x.2.disk.content? (Store.snapshotAt home e.id) = some before) := by
  obtain ⟨hkept, hsnapshot⟩ := Store.writeSnapshot_cases (s := { s with timeline := s.timeline.dropUndone })
    hhome hfolder ((s.removeSnapshots s.timeline.undone : StateM Frail Unit) f).2 hid before
  refine ⟨⟨fun id hne hid => ?_, ?_⟩, hsnapshot⟩
  · rw [hkept _ fun heq => hne (Store.snapshotAt_inj heq),
      Store.content?_removeSnapshots hhome hfolder f hnames fun u hu heq => ?_]
    exact hid (Store.snapshotAt_inj heq ▸ List.mem_map_of_mem hu)
  · rw [hkept _ (Store.fileAt_ne_snapshotAt home e.id),
      Store.content?_removeSnapshots hhome hfolder f hnames fun u _ => Store.fileAt_ne_snapshotAt home u.id]

/-- The activations in force keep their snapshots. -/
theorem take (h : Prepared home t.undone e.id d d') (hfresh : ∀ r ∈ rs, r.entry.id ≠ e.id)
    (ht : AllKept home rs lost d t.entries) : AllKept home rs lost d' (t.entries.take t.done) := by
  refine (ht.sublist (List.take_sublist _ _)).mono (List.Subset.refl _) (List.Subset.refl _) fun x hx => .inr ?_
  refine h.snapshots x.id (ht.id_ne hfresh (List.mem_of_mem_take hx)) fun hmem => ?_
  obtain ⟨u, hu, hid⟩ := List.mem_map.1 hmem
  exact Store.id_ne_of_undone ht.nodup hx hu hid.symm

/-- All others may be lost. -/
theorem lose (h : Prepared home t.undone e.id d d') (hfresh : ∀ r ∈ rs, r.entry.id ≠ e.id)
    (hes : AllKept home rs lost d es) : AllKept home rs (lost ++ t.undone.map Entry.id) d' es := by
  refine hes.mono (List.Subset.refl _) (List.subset_append_left _ _) fun x hx => ?_
  by_cases hmem : x.id ∈ t.undone.map Entry.id
  · exact .inl (List.mem_append_right _ hmem)
  · exact .inr (h.snapshots x.id (hes.id_ne hfresh hx) hmem)

/-- The new activation is kept next to those in force. -/
theorem record (h : Prepared home t.undone e.id d d') (hfresh : ∀ r ∈ rs, r.entry.id ≠ e.id)
    (ht : AllKept home rs lost d t.entries) {before : Bytes}
    (hsnapshot : d'.content? (Store.snapshotAt home e.id) = some before) :
    AllKept home (rs ++ [⟨e, before⟩]) lost d' (t.record e).entries where
  nodup := Store.nodup_record ht.nodup fun u hu => ht.id_ne hfresh hu
  kept x hx := by
    rcases List.mem_append.1 hx with hx | hx
    · obtain ⟨r, hr, hkept⟩ := (h.take hfresh ht).kept x hx
      exact ⟨r, List.mem_append_left _ hr, hkept⟩
    · obtain rfl := List.mem_singleton.1 hx
      exact ⟨⟨x, before⟩, by simp, rfl, rfl, .inr hsnapshot⟩

end Prepared

/-! ### Guarded histories -/

/-- Are the activations kept that the history holds in memory, and those that are listed in its file? -/
structure Guarded (project : Bytes) (rs : List Saved) (lost : List Bytes) (s : Store) (d : Disk) : Prop where
  folder_eq : s.folder = Store.folderOf project
  held : AllKept (Store.homeOf project) rs lost d s.timeline.entries
  listed : ∀ text stored, d.content? (Store.fileAt (Store.homeOf project)) = some text →
    Timeline.parse text = some stored → AllKept (Store.homeOf project) rs lost d stored.1

namespace Guarded

variable {project : Bytes} {rs : List Saved} {lost : List Bytes} {s : Store} {f : Frail}

/-- What is listed after a timeline was written, or a part of its text. -/
theorem allKept_of_text {home : Place} {d : Disk} {t : Timeline} {n : Nat} (hrs : Distinct rs)
    (ht : AllKept home rs lost d t.entries) (hfile : d.content? (Store.fileAt home) = some (t.text.take n))
    {text : Bytes} {stored : Timeline.Stored} (htext : d.content? (Store.fileAt home) = some text)
    (hparse : Timeline.parse text = some stored) : AllKept home rs lost d stored.1 := by
  obtain rfl := Option.some.inj (hfile.symm.trans htext)
  rw [Timeline.entries_of_parse_take hparse]
  exact ht.repaired hrs

theorem folder_eq_ofComponents (hproject : Path.isAbsolute project = true) {d : Disk}
    (h : Guarded project rs lost s d) : s.folder = Path.ofComponents true (Store.homeOf project) :=
  h.folder_eq.trans (Store.folderOf_eq hproject)

/-- A step along the timeline. -/
theorem move (hproject : Path.isAbsolute project = true) (hrs : Distinct rs) (h : Guarded project rs lost s f.disk)
    {t : Timeline} (ht : t.entries = s.timeline.entries) :
    Guarded project rs lost ((s.move t : StateM Frail _) f).1.1 ((s.move t : StateM Frail _) f).2.disk := by
  obtain ⟨hstore, hsnapshots, hfile⟩ :=
    Store.move_cases (Store.isName_of_mem_homeOf hproject) (h.folder_eq_ofComponents hproject) f t
  have hheld : AllKept (Store.homeOf project) rs lost ((s.move t : StateM Frail _) f).2.disk t.entries := by
    rw [ht]
    exact h.held.of_content? hsnapshots
  rw [hstore]
  refine ⟨h.folder_eq, hheld, fun text stored htext hparse => ?_⟩
  rcases hfile with ⟨n, hfile⟩ | ⟨-, hfile⟩
  · exact allKept_of_text hrs hheld hfile htext hparse
  · rw [hfile] at htext
    exact (h.listed text stored htext hparse).of_content? hsnapshots

/-- A new activation is recorded, or the snapshots of the undone ones are lost. -/
theorem record (hproject : Path.isAbsolute project = true) {e : Entry} {before : Bytes}
    (hrs : Distinct (rs ++ [⟨e, before⟩])) (h : Guarded project rs lost s f.disk) :
    Guarded project (rs ++ [⟨e, before⟩]) (lost ++ s.abandoned ((s.record e before : StateM Frail _) f).1.2)
      ((s.record e before : StateM Frail _) f).1.1 ((s.record e before : StateM Frail _) f).2.disk := by
  have hhome := Store.isName_of_mem_homeOf hproject
  have hfolder := h.folder_eq_ofComponents hproject
  have hfresh : ∀ r ∈ rs, r.entry.id ≠ e.id := fun r hr => hrs.id_ne hr (List.mem_singleton_self _)
  have hnames : ∀ u ∈ s.timeline.undone, Path.IsName u.id :=
    fun u hu => h.held.isName (hrs.sublist (List.sublist_append_left _ _)) (List.mem_of_mem_drop hu)
  obtain ⟨hprepared, hsnapshot⟩ :=
    Prepared.of_writeSnapshot hhome hfolder hnames (hrs.isName ⟨e, before⟩ (by simp)) before f
  have hnew : rs ⊆ rs ++ [⟨e, before⟩] := List.subset_append_left _ _
  rw [Store.record_apply]
  dsimp only at hprepared hsnapshot ⊢
  generalize ({ s with timeline := s.timeline.dropUndone }.writeSnapshot e.id before :
    ExceptT Failure (StateM Frail) Unit).run ((s.removeSnapshots s.timeline.undone : StateM Frail Unit) f).2 = x
    at hprepared hsnapshot ⊢
  have hlisted : ∀ text stored, x.2.disk.content? (Store.fileAt (Store.homeOf project)) = some text →
      Timeline.parse text = some stored → AllKept (Store.homeOf project) (rs ++ [⟨e, before⟩])
        (lost ++ s.timeline.undone.map Entry.id) x.2.disk stored.1 :=
    fun text stored htext hparse => (hprepared.lose hfresh
      (h.listed text stored (hprepared.file ▸ htext) hparse)).more hnew (List.Subset.refl _)
  obtain ⟨failure | ⟨⟩, f'⟩ := x
  · -- The list stays as it was, and the snapshots of the undone activations may be gone.
    exact ⟨h.folder_eq, (hprepared.take hfresh h.held).more hnew (List.subset_append_left _ _), hlisted⟩
  · -- The new list is written, or a part of it, or the list stays as it was.
    have hheld := hprepared.record hfresh h.held (hsnapshot rfl)
    dsimp only at hheld hlisted ⊢
    obtain ⟨hstore, hsnapshots, hfile⟩ := Store.move_cases (s := { s with timeline := s.timeline.dropUndone })
      hhome hfolder f' (s.timeline.record e)
    generalize ({ s with timeline := s.timeline.dropUndone }.move (s.timeline.record e) : StateM Frail _) f' = x
      at hstore hsnapshots hfile ⊢
    have hheld' := (hheld.of_content? hsnapshots).more (List.Subset.refl _)
      (List.subset_append_left lost (s.abandoned x.1.2))
    rw [hstore]
    refine ⟨h.folder_eq, hheld', fun text stored htext hparse => ?_⟩
    rcases hfile with ⟨n, hfile⟩ | ⟨⟨failure, hfailure⟩, hfile⟩
    · exact allKept_of_text hrs hheld' hfile htext hparse
    · rw [hfailure]
      exact (hlisted text stored (hfile ▸ htext) hparse).of_content? hsnapshots

/-- Nothing else changes than what files hold. -/
theorem of_content? {d d' : Disk} (h : Guarded project rs lost s d) (hd : ∀ q, d'.content? q = d.content? q) :
    Guarded project rs lost s d' := by
  have hsnapshots := fun id => hd (Store.snapshotAt (Store.homeOf project) id)
  refine ⟨h.folder_eq, h.held.of_content? hsnapshots, fun text stored htext hparse => ?_⟩
  rw [hd] at htext
  exact (h.listed text stored htext hparse).of_content? hsnapshots

/-- What is loaded is listed. -/
theorem allKept_of_loaded (hproject : Path.isAbsolute project = true) {d : Disk} (h : Guarded project rs lost s d)
    {t : Timeline} (ht : Store.loaded (Store.fileIn (Store.folderOf project))
      (d.read (Store.fileIn (Store.folderOf project))) = .ok t) :
    AllKept (Store.homeOf project) rs lost d t.entries := by
  rcases Store.loaded_eq_ok_iff.1 ht with ⟨rfl, -⟩ | ⟨text, stored, hread, hparse, hstored⟩
  · exact .nil _ _ _ _
  · obtain ⟨p, hp, htext⟩ := Disk.read_eq_ok_iff_content?.1 hread
    rw [← h.folder_eq] at hp
    obtain rfl := Store.eq_fileAt_of_locate (Store.isName_of_mem_homeOf hproject) (h.folder_eq_ofComponents hproject) hp
    rw [(Timeline.of_ofStored? hstored).1]
    exact h.listed text stored htext hparse

/-- A history that was opened is guarded if the activations in it are kept. -/
theorem of_load (hproject : Path.isAbsolute project = true) {f₀ : Frail}
    (hload : (Store.load project : ExceptT Failure (StateM Frail) Store).run f₀ = (.ok s, f))
    (h : AllKept (Store.homeOf project) rs lost f.disk s.timeline.entries) : Guarded project rs lost s f.disk := by
  have hcases := (Store.load_cases f₀ project).2
  rw [hload] at hcases
  obtain ⟨hmake, hfolder, hloaded⟩ := hcases s rfl
  refine ⟨hfolder, h, fun text stored htext hparse => ?_⟩
  have hslot := Store.slot_of_loaded hproject (Store.folderOf_eq hproject ▸ hmake)
    (hfolder.trans (Store.folderOf_eq hproject)) (hfolder ▸ hloaded)
  have hread := (Disk.read_iff_content? (Disk.slot_eq_ok_iff.1 hslot).2.1).2 htext
  rw [hfolder] at hread
  rw [hread] at hloaded
  rcases Store.loaded_eq_ok_iff.1 hloaded with ⟨-, hnil | ⟨fault, hfault, -⟩⟩ | ⟨text', stored', htext', hparse', ht⟩
  · rw [Except.ok.inj hnil] at hparse
    cases hparse
  · cases hfault
  · cases htext'
    cases hparse.symm.trans hparse'
    rw [← (Timeline.of_ofStored? ht).1]
    exact h

/-- Opening a history again. -/
theorem reload (hproject : Path.isAbsolute project = true) (h : Guarded project rs lost s f.disk) :
    let x := (Call.reload.act project s : StateM Frail _) f
    Guarded project rs lost x.1.1 x.2.disk := by
  obtain ⟨hcontent, hload⟩ := Store.load_cases f project
  rw [Call.act, bind_apply]
  generalize (Store.load project : ExceptT Failure (StateM Frail) Store).run f = x at hcontent hload ⊢
  obtain ⟨failure | s', f'⟩ := x
  · exact h.of_content? hcontent
  · obtain ⟨-, hfolder, hloaded⟩ := hload s' rfl
    have h' := h.of_content? hcontent
    exact ⟨hfolder, h'.allKept_of_loaded hproject hloaded, h'.listed⟩

/-- Every call keeps a history guarded. -/
theorem step (hproject : Path.isAbsolute project = true) {c : Call} (hrs : Distinct (rs ++ c.recorded))
    (h : Guarded project rs lost s f.disk) :
    let x := (c.act project s : StateM Frail _) f
    Guarded project (rs ++ c.recorded) (lost ++ c.abandons s x.1.2) x.1.1 x.2.disk := by
  cases c with
  | record e name time before =>
    have hrecord := h.record hproject hrs
    dsimp only [Call.act, Call.abandons, bind_apply, pure_apply]
    rw [Store.abandoned_map]
    exact hrecord
  | reload =>
    have hreload := h.reload hproject
    simp only [Call.recorded, Call.abandons, List.append_nil] at hrs ⊢
    exact hreload
  | undo | rewind =>
    simp only [Call.recorded, Call.abandons, List.append_nil] at hrs ⊢
    simp only [Call.act, Store.undo, Store.rewind]
    cases hundo : s.timeline.undo? with
    | none => exact h
    | some step => exact h.move hproject hrs (Timeline.undo?_eq_some_iff.1 hundo).2.1
  | redo | advance =>
    simp only [Call.recorded, Call.abandons, List.append_nil] at hrs ⊢
    simp only [Call.act, Store.redo, Store.advance]
    cases hredo : s.timeline.redo? with
    | none => exact h
    | some step => exact h.move hproject hrs (Timeline.redo?_eq_some_iff.1 hredo).2.1

/-- So does every run of calls. -/
theorem run (hproject : Path.isAbsolute project = true) {calls : List Call}
    (hrs : Distinct (rs ++ calls.flatMap Call.recorded)) (h : Guarded project rs lost s f.disk) :
    let x := (actAll project calls s : StateM Frail _) f
    Guarded project (rs ++ calls.flatMap Call.recorded) (lost ++ x.1.2) x.1.1 x.2.disk := by
  induction calls generalizing rs lost s f with
  | nil =>
    simp only [actAll, pure_apply, List.flatMap_nil, List.append_nil]
    exact h
  | cons c calls ih =>
    rw [List.flatMap_cons, ← List.append_assoc] at hrs
    have hstep := h.step hproject (hrs.sublist (List.sublist_append_left _ _))
    have hrun := ih hrs hstep
    simp only [actAll, bind_apply, pure_apply, List.flatMap_cons, ← List.append_assoc]
    exact hrun

end Guarded

/-! ### What is listed has its snapshots -/

/-- **What is listed has its snapshots.** However the calls go wrong, what the file of the history then lists was
recorded, and its snapshot holds what the file held before, unless a call that failed to record a new activation had
taken the snapshots of the undone ones away. -/
theorem snapshots_of_actAll {project : Bytes} (hproject : Path.isAbsolute project = true) {f₀ f f' : Frail}
    {s s' : Store} (hload : (Store.load project : ExceptT Failure (StateM Frail) Store).run f₀ = (.ok s, f))
    {rs : List Saved} (hkept : AllKept (Store.homeOf project) rs [] f.disk s.timeline.entries) {calls : List Call}
    (hrs : Distinct (rs ++ calls.flatMap Call.recorded)) {lost : List Bytes}
    (hrun : (actAll project calls s : StateM Frail _) f = ((s', lost), f')) {t : Timeline}
    (ht : ((Store.loadTimeline (Store.fileIn (Store.folderOf project)) :
      ExceptT Failure (StateM Frail) Timeline).run f').1 = .ok t) :
    ∀ e ∈ t.entries, ∃ r ∈ rs ++ calls.flatMap Call.recorded, e = r.entry.repaired ∧
      (e.id ∈ lost ∨ f'.disk.content? (Store.snapshotAt (Store.homeOf project) e.id) = some r.before) := by
  have hguarded := (Guarded.of_load hproject hload hkept).run hproject hrs
  rw [hrun] at hguarded
  rw [Store.loadTimeline_apply] at ht
  intro e he
  obtain ⟨r, hr, -, hrepaired, hsnapshot⟩ := (hguarded.allKept_of_loaded hproject ht).kept e he
  have hsame : e.repaired = e := ((Store.isLoaded_of_loaded ht).1 e he).1
  exact ⟨r, hr, hsame.symm.trans hrepaired, hsnapshot⟩

/-- An activation with plain texts. -/
def plainEntry (id : Bytes) : Entry :=
  { id := id, timestamp := 1, path := "/t.js", backup := "/t.js.backup", name := "a", scan := "brace" }

/-- A disk with an empty history. -/
def emptyDisk : Disk := { entries := [([".focus"], .folder 0o755)] }

/-- An activation is undone, another one takes its place, and that one is undone and repeated. -/
def tornCalls : List Call :=
  [.record (plainEntry "op-1") "" 0 "x", .undo, .record (plainEntry "op-2") "" 0 "y", .undo, .redo]

/-- The disk is full when the list with the second activation is written. -/
def tornDisk : Frail :=
  ⟨emptyDisk, List.replicate 7 none ++ [some ⟨.other "no space left on device", some 20⟩]⟩

theorem snapshots_of_actAll_torn :
    let x := (actAll "/" tornCalls ⟨"/.focus", .empty⟩ : StateM Frail _) tornDisk
    ∃ t, ((Store.loadTimeline (Store.fileIn (Store.folderOf "/")) :
        ExceptT Failure (StateM Frail) Timeline).run x.2).1 = .ok t ∧
      t.entries = [plainEntry "op-2"] ∧ x.1.2 = [Bytes.ofString "op-1"] ∧
      ∀ e ∈ t.entries, ∃ r ∈ tornCalls.flatMap Call.recorded, e = r.entry.repaired ∧
        (e.id ∈ x.1.2 ∨ x.2.disk.content? (Store.snapshotAt (Store.homeOf "/") e.id) = some r.before) := by
  have hload : (Store.load "/" : ExceptT Failure (StateM Frail) Store).run ⟨emptyDisk, none :: tornDisk.ahead⟩ =
      (.ok ⟨"/.focus", .empty⟩, tornDisk) := rfl
  intro x
  have hlisted : (((Store.loadTimeline (Store.fileIn (Store.folderOf "/")) :
      ExceptT Failure (StateM Frail) Timeline).run x.2).1.toOption.map (·.entries)) = some [plainEntry "op-2"] := by
    decide +kernel
  cases ht : ((Store.loadTimeline (Store.fileIn (Store.folderOf "/")) :
      ExceptT Failure (StateM Frail) Timeline).run x.2).1 with
  | error failure =>
    rw [ht] at hlisted
    cases hlisted
  | ok t =>
    rw [ht] at hlisted
    exact ⟨t, rfl, Option.some.inj hlisted, by decide +kernel,
      snapshots_of_actAll rfl hload (AllKept.nil _ [] _ _) (by decide +kernel) rfl ht⟩

/-- An activation is undone, and the snapshot of the next one has a name that is longer than a name may be. -/
def abandonedCalls : List Call :=
  [.record (plainEntry "op-1") "" 0 "x", .undo, .record (plainEntry (List.replicate 300 0x79)) "" 0 "z"]

/-- The undone activation is still listed, and its snapshot is gone. -/
theorem undone_snapshot_is_lost :
    let f : Frail := ⟨emptyDisk, []⟩
    let x := (actAll "/" abandonedCalls ⟨"/.focus", .empty⟩ : StateM Frail _) f
    (Store.load "/" : ExceptT Failure (StateM Frail) Store).run f = (.ok ⟨"/.focus", .empty⟩, f) ∧
      Distinct (abandonedCalls.flatMap Call.recorded) ∧
      ((Store.loadTimeline (Store.fileIn (Store.folderOf "/")) :
        ExceptT Failure (StateM Frail) Timeline).run x.2).1.toOption.map (·.entries) = some [plainEntry "op-1"] ∧
      x.2.disk.content? (Store.snapshotAt (Store.homeOf "/") "op-1") = none := by
  refine ⟨rfl, ?_⟩
  decide +kernel

end Spotlight.History
