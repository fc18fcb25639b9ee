import Spotlight.Proofs.Files.Disk
import Spotlight.Proofs.History.Timeline
import Spotlight.Proofs.Session.Run

/-!
# The history on a desk

* `History.Timeline.redo?_of_undo?`, `History.Timeline.undo?_of_redo?` — a step back and a step forth cancel
  each other;
* `History.Store.loadTimeline_eq`, `History.Store.loaded_eq_ok_iff` — how a timeline is loaded;
* `History.Store.IsStored` — does the file of a history hold its timeline?
* `History.Store.isStored_of_read` — a timeline that can come out of a file is stored once it is written;
* `History.Store.eq_repaired_of_loadTimeline` — what is loaded from its text is a timeline with its texts
  repaired;
* `History.Store.move_apply` — moving along the timeline writes its file, and nothing else.
-/

namespace Spotlight.History

open Files

/-! ### Steps along a timeline -/

namespace Timeline

/-- A step back: the entry it is about, and where it leads. -/
theorem undo?_eq_some_iff {t t' : Timeline} {e : Entry} : t.undo? = some (e, t') ↔
    t'.done + 1 = t.done ∧ t'.entries = t.entries ∧ t.entries[t'.done]? = some e := by
  unfold undo?
  have hle := t.done_le
  split
  · rename_i hpos
    rw [Option.some.injEq, Prod.mk.injEq]
    constructor
    · rintro ⟨rfl, rfl⟩
      dsimp only
      exact ⟨by omega, rfl, List.getElem?_eq_getElem (by omega)⟩
    · rintro ⟨hdone, hentries, hget⟩
      obtain ⟨entries', done', hle'⟩ := t'
      dsimp only at hdone hentries hget
      subst hentries
      obtain rfl : done' = t.done - 1 := by omega
      obtain ⟨_, hget⟩ := List.getElem?_eq_some_iff.1 hget
      exact ⟨hget, rfl⟩
  · constructor
    · simp
    · rintro ⟨hdone, -⟩
      omega

/-- A step forth: the entry it is about, and where it leads. -/
theorem redo?_eq_some_iff {t t' : Timeline} {e : Entry} : t.redo? = some (e, t') ↔
    t'.done = t.done + 1 ∧ t'.entries = t.entries ∧ t.entries[t.done]? = some e := by
  unfold redo?
  split
  · rename_i hlt
    rw [Option.some.injEq, Prod.mk.injEq]
    constructor
    · rintro ⟨rfl, rfl⟩
      exact ⟨rfl, rfl, List.getElem?_eq_getElem hlt⟩
    · rintro ⟨hdone, hentries, hget⟩
      obtain ⟨entries', done', hle'⟩ := t'
      dsimp only at hdone hentries
      subst hentries hdone
      obtain ⟨_, hget⟩ := List.getElem?_eq_some_iff.1 hget
      exact ⟨hget, rfl⟩
  · rename_i hge
    constructor
    · simp
    · rintro ⟨-, -, hget⟩
      obtain ⟨hlt, -⟩ := List.getElem?_eq_some_iff.1 hget
      exact absurd hlt hge

theorem redo?_of_undo? {t t' : Timeline} {e : Entry} (h : t.undo? = some (e, t')) :
    t'.redo? = some (e, t) := by
  obtain ⟨hdone, hentries, hget⟩ := undo?_eq_some_iff.1 h
  exact redo?_eq_some_iff.2 ⟨hdone.symm, hentries.symm, by rw [hentries, hget]⟩

theorem undo?_of_redo? {t t' : Timeline} {e : Entry} (h : t.redo? = some (e, t')) :
    t'.undo? = some (e, t) := by
  obtain ⟨hdone, hentries, hget⟩ := redo?_eq_some_iff.1 h
  exact undo?_eq_some_iff.2 ⟨hdone.symm, hentries.symm, by rw [hentries, hget]⟩

theorem ofStored?_eq (t : Timeline) : ofStored? (t.entries, t.index) = some t := by
  have hle := t.done_le
  have hrange : -1 ≤ t.index ∧ t.index < t.entries.length := by
    rw [index]
    omega
  rw [ofStored?, dif_pos hrange]
  obtain ⟨entries, done, hdone⟩ := t
  have hnat : (index ⟨entries, done, hdone⟩ + 1).toNat = done := by
    show ((done : Int) - 1 + 1).toNat = done
    omega
  simp only [hnat]

theorem of_ofStored? {stored : Stored} {t : Timeline} (h : ofStored? stored = some t) :
    t.entries = stored.1 ∧ t.index = stored.2 := by
  unfold ofStored? at h
  split at h
  · rename_i hrange
    rw [← Option.some.inj h]
    refine ⟨rfl, ?_⟩
    show ((stored.2 + 1).toNat : Int) - 1 = stored.2
    omega
  · cases h

theorem fits64_index {t : Timeline} (h : t.entries.length ≤ 0x8000000000000000) : Fits64 t.index := by
  have hle := t.done_le
  rw [Fits64, index]
  omega

/-- The timeline with all its texts repaired. -/
def repaired (t : Timeline) : Timeline := ⟨t.entries.map Entry.repaired, t.done, by simpa using t.done_le⟩

theorem text_ne_nil (t : Timeline) : t.text ≠ [] := by
  rw [text, Json.Value.print, toJson, Json.Value.printAt]
  simp

end Timeline

/-! ### The file of a history -/

namespace Store

/-- Does the file of the history hold its timeline? -/
def IsStored (s : Store) (d : Desk) : Prop :=
  (loadTimeline (fileIn s.folder) : ExceptT Failure (StateM Desk) Timeline).run d = (.ok s.timeline, d)

/-- The timeline that is loaded, by what reading its file comes to. -/
def loaded (file : Bytes) : Except Files.Fault Bytes → Except Failure Timeline
  | .error fault => if fault.isMissing then .ok .empty else .error (.files fault)
  | .ok [] => .ok .empty
  | .ok text =>
    match Timeline.parse text with
    | none => .error (.historyMalformed file)
    | some stored =>
      match Timeline.ofStored? stored with
      | none => .error (.historyIndex file stored.2)
      | some t => .ok t

/-- A timeline is loaded by reading its file, and by nothing else. -/
theorem loadTimeline_eq {m : Type → Type} [Monad m] [LawfulMonad m] [MonadFiles m] (file : Bytes) :
    (loadTimeline file : ExceptT Failure m Timeline) = ExceptT.mk (loaded file <$> (MonadFiles.read file : m _)) := by
  have hlift : (liftM (MonadFiles.read file : m _) : ExceptT Failure m (Except Files.Fault Bytes)).run =
      Except.ok <$> MonadFiles.read file := rfl
  apply ExceptT.ext
  rw [loadTimeline, ExceptT.run_bind, ExceptT.run_mk, hlift, bind_map_left, map_eq_pure_bind]
  congr 1
  funext r
  dsimp only
  rw [loaded.eq_def]
  cases r with
  | error fault =>
    dsimp only
    split <;> rfl
  | ok text => cases text with
    | nil => rfl
    | cons b text =>
      dsimp only
      cases Timeline.parse (b :: text) with
      | none => rfl
      | some stored =>
        dsimp only
        cases Timeline.ofStored? stored <;> rfl

/-- A timeline is empty where its file is missing or empty; else it is read from the text. -/
theorem loaded_eq_ok_iff {file : Bytes} {r : Except Files.Fault Bytes} {t : Timeline} : loaded file r = .ok t ↔
    (t = .empty ∧ (r = .ok [] ∨ ∃ fault, r = .error fault ∧ fault.isMissing = true)) ∨
      ∃ text stored, r = .ok text ∧ Timeline.parse text = some stored ∧ Timeline.ofStored? stored = some t := by
  constructor
  · intro h
    unfold loaded at h
    split at h
    · rename_i fault
      split at h
      · cases h
        exact .inl ⟨rfl, .inr ⟨fault, rfl, ‹_›⟩⟩
      · cases h
    · cases h
      exact .inl ⟨rfl, .inl rfl⟩
    · rename_i text _
      split at h
      · cases h
      · rename_i stored hparse
        split at h
        · cases h
        · rename_i t' ht
          cases h
          exact .inr ⟨text, stored, rfl, hparse, ht⟩
  · rintro (⟨rfl, rfl | ⟨fault, rfl, hmissing⟩⟩ | ⟨text, stored, rfl, hparse, ht⟩)
    · rfl
    · rw [loaded, if_pos hmissing]
    · cases text with
      | nil => cases hparse
      | cons b text =>
        rw [loaded.eq_def]
        dsimp only
        rw [hparse]
        dsimp only
        rw [ht]

theorem run_loadTimeline (file : Bytes) (d : Desk) :
    (loadTimeline file : ExceptT Failure (StateM Desk) Timeline).run d = (loaded file (d.disk.read file), d) := by
  rw [loadTimeline_eq]
  rfl

/-- A timeline that is loaded can come out of a file. -/
theorem isLoaded_of_loaded {file : Bytes} {r : Except Files.Fault Bytes} {t : Timeline} (h : loaded file r = .ok t) :
    (∀ e ∈ t.entries, e.IsLoaded) ∧ Fits64 t.index := by
  rcases loaded_eq_ok_iff.1 h with ⟨rfl, -⟩ | ⟨text, stored, -, hparse, ht⟩
  · exact ⟨fun e he => absurd he List.not_mem_nil, by decide⟩
  · obtain ⟨hentries, hindex⟩ := Timeline.of_ofStored? ht
    rw [hentries, hindex]
    exact Timeline.isLoaded_of_parse hparse

theorem IsStored.isLoaded {s : Store} {d : Desk} (h : s.IsStored d) :
    (∀ e ∈ s.timeline.entries, e.IsLoaded) ∧ Fits64 s.timeline.index := by
  rw [IsStored, run_loadTimeline, Prod.mk.injEq] at h
  exact isLoaded_of_loaded h.1

/-- A timeline that can come out of a file is stored once its text is written. -/
theorem isStored_of_read {s : Store} {d : Desk} (hread : d.disk.read (fileIn s.folder) = .ok s.timeline.text)
    (hentries : ∀ e ∈ s.timeline.entries, e.IsLoaded) (hindex : Fits64 s.timeline.index) : s.IsStored d := by
  have hparse : Timeline.parse s.timeline.text = some (s.timeline.entries, s.timeline.index) := by
    have hsame : s.timeline.entries.map Entry.repaired = s.timeline.entries := by
      rw [List.map_congr_left fun e he => (hentries e he).1, List.map_id']
    rw [Timeline.parse_text, if_pos ⟨fun e he => (hentries e he).2, hindex⟩, hsame]
  rw [IsStored, run_loadTimeline, hread,
    loaded_eq_ok_iff.2 (.inr ⟨_, _, rfl, hparse, s.timeline.ofStored?_eq⟩)]

/-- What is loaded from the text of a timeline is that timeline, with its texts repaired. -/
theorem eq_repaired_of_loadTimeline {file : Bytes} {d : Desk} {t t' : Timeline}
    (hread : d.disk.read file = .ok t.text)
    (hload : ((loadTimeline file : ExceptT Failure (StateM Desk) Timeline).run d).1 = .ok t') :
    t' = t.repaired := by
  rw [run_loadTimeline, hread] at hload
  dsimp only at hload
  rcases loaded_eq_ok_iff.1 hload with ⟨-, hnil | ⟨fault, hfault, -⟩⟩ | ⟨text, stored, htext, hparse, ht'⟩
  · exact absurd (Except.ok.inj hnil) t.text_ne_nil
  · cases hfault
  · cases htext
    rw [Timeline.parse_text] at hparse
    obtain ⟨-, heq⟩ := Option.ite_none_right_eq_some.1 hparse
    cases heq
    have hstored : Timeline.ofStored? (t.entries.map Entry.repaired, t.index) = some t.repaired :=
      t.repaired.ofStored?_eq
    rw [hstored] at ht'
    exact (Option.some.inj ht').symm

/-! ### Moving along the timeline -/

/-- Moving along the timeline writes its file, and nothing else. -/
theorem move_apply {s : Store} {d : Desk} {q : Place} (h : d.disk.slot (fileIn s.folder) = .ok q)
    (t : Timeline) : ∃ mode, (s.move t : StateM Desk _) d =
      (({ s with timeline := t }, .ok ()), { d with disk := d.disk.set q (.file mode t.text) }) := by
  obtain ⟨mode, hwrite⟩ := Disk.overwrite_of_slot h t.text
  have hchange : Desk.change (·.overwrite (fileIn s.folder) t.text) d =
      (.ok (), { d with disk := d.disk.set q (.file mode t.text) }) := by
    rw [Desk.change, hwrite]
  refine ⟨mode, ?_⟩
  rw [move, Session.bind_apply, save, Session.run_lift, Session.overwrite_apply, hchange]
  rfl

end Store

end Spotlight.History
