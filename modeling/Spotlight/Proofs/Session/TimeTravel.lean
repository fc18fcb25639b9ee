import Spotlight.Proofs.Session.Consistent

/-!
# Travelling through whole sessions

A session is a sequence of commands in one project, with nobody else changing the files.

* `Session.Admissible` — the commands: activations, steps along the history, lists and dry runs;
* `Session.Reached` — the states of a session that starts without a recorded activation;
* `Session.TimeTravel` — the files follow the history, and every activation can be undone and repeated;
* `Session.timeTravel_of_reached` — that is so in every state of every session.
-/

namespace Spotlight.Session

open Files History

/-! ### Sessions -/

/-- Do the settings ask for an activation? -/
def activates (s : Settings) : Bool := !s.undo && !s.redo && s.report.isEmpty && !s.list && !s.dryRun

/-- A command of a session is no report and uses no editor. An activation restores nothing from a backup, the
path of its file is well formed, and neither its file nor the backup lies in the history at `home`. -/
structure Admissible (home : Place) (settings : Settings) (s : Store) (d : Desk) : Prop where
  report : settings.report = []
  nvim : settings.nvim = false
  restoreBackup : activates settings = true → settings.restoreBackup = false
  isUtf8 : activates settings = true → (((command settings s).target d).1).isUtf8 = true
  target : activates settings = true →
    ∀ p, d.disk.locate ((command settings s).target d).1 = .ok p → ¬ home <+: p
  backup : activates settings = true →
    ∀ p, d.disk.locate (settings.backupPath ((command settings s).target d).1) = .ok p → ¬ home <+: p

/-- The states of a session in a project: the history in memory, the surroundings, and what files held when
they were first seen. The history starts without activations; it may be loaded anew at any time. Between
commands, anything but the files may change, and no command is refused a change to the files. -/
inductive Reached (project : Bytes) : Store → Desk → Origin → Prop
  /-- The history of the project is opened. -/
  | start {s : Store} {d d' : Desk} (hproject : Path.isAbsolute project = true) (hnames : PlainNames d.names)
      (hload : (Store.load project : ExceptT Failure (StateM Desk) Store).run d = (.ok s, d'))
      (hempty : s.timeline.entries = []) : Reached project s d' d'.disk.content?
  /-- The history is opened again. -/
  | reload {s s' : Store} {d d' : Desk} {origin : Origin} (h : Reached project s d origin)
      (hload : (Store.load project : ExceptT Failure (StateM Desk) Store).run d = (.ok s', d')) :
      Reached project s' d' origin
  /-- Time goes by. -/
  | rest {s : Store} {d d' : Desk} {origin : Origin} (h : Reached project s d origin)
      (hdisk : d'.disk = d.disk) (hnames : d'.names = d.names) (hnamed : d'.named = d.named) :
      Reached project s d' origin
  /-- A command is performed. -/
  | call {s : Store} {d : Desk} {origin : Origin} (h : Reached project s d origin) (settings : Settings)
      (hadmissible : Admissible (Store.homeOf project) settings s d)
      (hrefused : ((command settings s).perform d).2.refused = d.refused) :
      Reached project ((command settings s).perform d).1.1 ((command settings s).perform d).2
        (firstSeen origin ((command settings s).perform d).2.disk)

/-- What is to hold of a state of a session, with the history at `home`. -/
structure TimeTravel (home : Place) (s : Store) (d : Desk) (origin : Origin) : Prop where
  /-- A file holds what the activations in force that touch it make of what it held at first. -/
  contents : ∀ p b, ¬ home <+: p → origin p = some b →
    d.disk.content? p = replay (touching d.disk p (s.timeline.entries.take s.timeline.done)) b
  /-- All files are accounted for. -/
  seen : ∀ p c, ¬ home <+: p → d.disk.content? p = some c → origin p ≠ none
  /-- A step along the history succeeds, moves by one, and leaves exactly what the activations in force then
  make of the file. Nothing else changes. -/
  travels : ∀ (dir : Direction) (settings : Settings) (e : History.Entry) (t : Timeline),
    dir.asked settings → settings.nvim = false → dir.step? s.timeline = some (e, t) →
    ((command settings s).perform d).2.refused = d.refused →
    ((command settings s).perform d).1.2.failure = none ∧
      ((command settings s).perform d).1.1.timeline = t ∧
      ∃ p b c, d.disk.locate e.path = .ok p ∧ origin p = some b ∧
        replay (touching d.disk p (t.entries.take t.done)) b = some c ∧
        ((command settings s).perform d).2.disk.content? p = some c ∧
        ∀ r, ¬ home <+: r → r ≠ p → ((command settings s).perform d).2.disk.get? r = d.disk.get? r
  /-- An activation that fails changes nothing that was there. -/
  fails : ∀ settings, Admissible home settings s d → activates settings = true →
    ((command settings s).perform d).2.refused = d.refused →
    ((command settings s).perform d).1.2.failure ≠ none →
    ((command settings s).perform d).1.1 = s ∧
      ∀ r, d.disk.get? r ≠ none → ((command settings s).perform d).2.disk.get? r = d.disk.get? r
  /-- A file that no activation in force touches, such as a backup, holds what it held at first. -/
  keeps : ∀ p b, ¬ home <+: p → origin p = some b →
    (∀ e ∈ s.timeline.entries.take s.timeline.done, d.disk.locate e.path ≠ .ok p) →
    d.disk.content? p = some b

/-! ### Loading the history anew -/

/-- Repairing the texts of activations does not matter where only backups need it. -/
theorem replay_repaired {es : List History.Entry}
    (h : ∀ e ∈ es, e.repaired = { e with backup := Rune.repaired e.backup }) (d : Disk) (p : Place) (b : Bytes) :
    replay (touching d p (es.map History.Entry.repaired)) b = replay (touching d p es) b := by
  induction es generalizing b with
  | nil => rfl
  | cons e es ih =>
    have he := h e (by simp)
    have hes := ih fun e' he' => h e' (List.mem_cons_of_mem _ he')
    have hpath : e.repaired.path = e.path := by rw [he]
    have hoptions : optionsOf e.repaired = optionsOf e := by rw [he]; rfl
    rw [List.map_cons, touching, touching, List.filter_cons, List.filter_cons, hpath]
    by_cases hleads : leadsTo d p e.path = true
    · rw [if_pos hleads, if_pos hleads, replay, replay, hoptions]
      cases Activation.run b (optionsOf e) with
      | ok done => exact hes done.text
      | error fault => rfl
    · rw [if_neg hleads, if_neg hleads]
      exact hes b

namespace Consistent

variable {home : Place} {s s' : Store} {d d' : Desk} {origin : Origin}

/-- The invariant depends on the files and the names alone. -/
theorem congr (h : Consistent home s d origin) (hdisk : d'.disk = d.disk) (hnames : d'.names = d.names)
    (hnamed : d'.named = d.named) : Consistent home s d' origin := by
  refine ⟨h.isName, h.folder_eq, by rw [hdisk]; exact h.folders, by rw [hdisk]; exact h.slot_eq, ?_,
    by rw [hnames]; exact h.names, h.ids, fun earlier e later hsplit => ?_, by rw [hdisk]; exact h.seen,
    by rw [hdisk]; exact h.contents⟩
  · intro t ht
    rw [Store.run_loadTimeline, hdisk] at ht
    exact h.loads t (by rw [Store.run_loadTimeline]; exact ht)
  · obtain ⟨hname, htexts, hlocated, hcontents⟩ := h.sound earlier e later hsplit
    refine ⟨by rw [hnamed, hnames]; exact hname, htexts, by rw [hdisk]; exact hlocated, ?_⟩
    rw [hdisk]
    exact hcontents

/-- The history that is loaded anew differs in nothing that matters. -/
theorem of_repaired (h : Consistent home s d origin) : Consistent home ⟨s.folder, s.timeline.repaired⟩ d origin := by
  have htexts : ∀ e ∈ s.timeline.entries, e.repaired = { e with backup := Rune.repaired e.backup } := by
    intro e he
    obtain ⟨earlier, later, hsplit⟩ := List.append_of_mem he
    exact (h.sound earlier e later hsplit).texts
  have htwice : s.timeline.repaired.repaired = s.timeline.repaired := by
    simp only [Timeline.repaired, List.map_map, Timeline.mk.injEq, and_true]
    exact List.map_congr_left fun e _ => e.repaired_repaired
  refine ⟨h.isName, h.folder_eq, h.folders, h.slot_eq, fun t ht => by rw [htwice]; exact h.loads t ht, h.names,
    ?_, fun earlier e later hsplit => ?_, h.seen, fun p b hp hb => ?_⟩
  · have hids : s.timeline.repaired.entries.map History.Entry.id = s.timeline.entries.map History.Entry.id := by
      rw [Timeline.repaired, List.map_map]
      exact List.map_congr_left fun e he => by
        show e.repaired.id = e.id
        rw [htexts e he]
    rw [hids]
    exact h.ids
  · obtain ⟨earlier₀, rest, hsplit₀, rfl, hrest⟩ := List.map_eq_append_iff.1 hsplit
    obtain ⟨e₀, later₀, rfl, rfl, rfl⟩ := List.map_eq_cons_iff.1 hrest
    obtain ⟨hname, htext, hlocated, hcontents⟩ := h.sound earlier₀ e₀ later₀ hsplit₀
    have hearlier : ∀ e ∈ earlier₀, e.repaired = { e with backup := Rune.repaired e.backup } :=
      fun e he => htexts e (by rw [hsplit₀]; exact List.mem_append_left _ he)
    have hfields : e₀.repaired.id = e₀.id ∧ e₀.repaired.path = e₀.path ∧
        e₀.repaired.hashBefore = e₀.hashBefore ∧ e₀.repaired.hashAfter = e₀.hashAfter ∧
        optionsOf e₀.repaired = optionsOf e₀ := by
      rw [htext]
      exact ⟨rfl, rfl, rfl, rfl, rfl⟩
    obtain ⟨hid, hpath, hbefore, hafter, hoptions⟩ := hfields
    refine ⟨by rw [hid]; exact hname, ?_, by rw [hid]; exact hlocated, ?_⟩
    · have hbackup : Rune.repaired e₀.repaired.backup = e₀.repaired.backup :=
        Rune.repaired_of_isUtf8 (Bytes.isUtf8_repaired _)
      rw [History.Entry.repaired_repaired, hbackup]
    · rw [hid, hpath, hbefore, hafter, hoptions]
      simp only [replay_repaired hearlier]
      exact hcontents
  · obtain ⟨c, hc, hreplay⟩ := h.contents p b hp hb
    refine ⟨c, hc, ?_⟩
    have htake : s.timeline.repaired.entries.take s.timeline.repaired.done =
        (s.timeline.entries.take s.timeline.done).map History.Entry.repaired := List.map_take.symm
    show replay (touching d.disk p (s.timeline.repaired.entries.take s.timeline.repaired.done)) b = some c
    rw [htake, replay_repaired (fun e he => htexts e (List.mem_of_mem_take he)), hreplay]

/-- Opening the history again changes no file, and gives the same history. -/
theorem of_load {project : Bytes} (h : Consistent (Store.homeOf project) s d origin)
    (hproject : Path.isAbsolute project = true)
    (hload : (Store.load project : ExceptT Failure (StateM Desk) Store).run d = (.ok s', d')) :
    Consistent (Store.homeOf project) s' d' origin := by
  obtain ⟨disk, hmake, rfl, hfolder, hstored⟩ := Store.exists_of_load hproject hload
  obtain rfl : disk = d.disk := by
    rw [Disk.makeFolders_of_isFolderAt h.isName h.folders] at hmake
    exact (Except.ok.inj hmake).symm
  have hsame : s'.folder = s.folder := by rw [hfolder, h.folder_eq]
  have htimeline : s'.timeline = s.timeline.repaired := by
    rw [Store.IsStored, hsame] at hstored
    exact h.loads _ (congrArg Prod.fst hstored)
  obtain ⟨folder, timeline⟩ := s'
  dsimp only at hsame htimeline
  subst hsame htimeline
  exact h.of_repaired.congr rfl rfl rfl

/-- A history that can be loaded is opened again without a change to the files. -/
theorem run_load {project : Bytes} (h : Consistent (Store.homeOf project) s d origin)
    (hproject : Path.isAbsolute project = true) {t : Timeline}
    (ht : ((Store.loadTimeline (Store.fileIn (Store.folderOf project)) :
      ExceptT Failure (StateM Desk) Timeline).run d).1.toOption = some t) :
    (Store.load project : ExceptT Failure (StateM Desk) Store).run d = (.ok ⟨Store.folderOf project, t⟩, d) := by
  rw [Store.run_load_of_isFolderAt hproject h.folders]
  cases hloaded : ((Store.loadTimeline (Store.fileIn (Store.folderOf project)) :
      ExceptT Failure (StateM Desk) Timeline).run d).1 with
  | error failure =>
    rw [hloaded] at ht
    cases ht
  | ok t' =>
    rw [hloaded] at ht
    cases ht
    rfl

/-- A history without activations starts a session. -/
theorem of_start {project : Bytes} (hproject : Path.isAbsolute project = true) (hnames : PlainNames d.names)
    (hload : (Store.load project : ExceptT Failure (StateM Desk) Store).run d = (.ok s, d'))
    (hempty : s.timeline.entries = []) :
    Consistent (Store.homeOf project) s d' d'.disk.content? := by
  have hhome := Store.isName_of_mem_homeOf hproject
  have hslot := Store.slot_of_load hproject hload
  obtain ⟨disk, hmake, rfl, hfolder, hstored⟩ := Store.exists_of_load hproject hload
  obtain ⟨-, hfolders⟩ := Disk.paved_of_makeFolders hhome hmake
  refine ⟨hhome, hfolder, hfolders, hslot, ?_, hnames, by simp [hempty], ?_, fun p b _ hb => by simp [hb], ?_⟩
  · intro t ht
    rw [Store.IsStored] at hstored
    rw [hstored] at ht
    have hrepaired : s.timeline.repaired = s.timeline := by
      have hle := s.timeline.done_le
      rcases s with ⟨folder, entries, done, hdone⟩
      dsimp only at hempty
      subst hempty
      rfl
    rw [hrepaired]
    exact (Except.ok.inj ht).symm
  · intro earlier e later hsplit
    rw [hempty] at hsplit
    simp at hsplit
  · intro p b _ hb
    exact ⟨b, hb, by rw [hempty, List.take_nil]; rfl⟩

end Consistent

/-! ### Commands -/

theorem perform_of_activates (a : Session (StateM Desk)) (h : activates a.settings = true) :
    a.perform = a.activate := by
  simp only [activates, Bool.and_eq_true, Bool.not_eq_true'] at h
  obtain ⟨⟨⟨⟨hundo, hredo⟩, hreport⟩, hlist⟩, hdryRun⟩ := h
  simp only [Session.perform, hundo, hredo, hreport, hlist, hdryRun, Bool.not_true, Bool.false_eq_true, if_false]

/-- A command that is no report is a step along the history, an activation, or changes nothing. -/
theorem perform_cases (s : Store) {settings : Settings} (hreport : settings.report = []) :
    (∃ dir : Direction, dir.asked settings) ∨
      (activates settings = true ∧ (command settings s).perform = (command settings s).activate) ∨
      ∀ d, ∃ o, (command settings s).perform d = ((s, o), d) := by
  cases hundo : settings.undo with
  | true => exact Or.inl ⟨.back, hundo⟩
  | false =>
    cases hredo : settings.redo with
    | true => exact Or.inl ⟨.forth, hundo, hredo⟩
    | false =>
      have hrest : (command settings s).perform =
          if settings.list then return (s, ← (command settings s).listGroups)
          else if settings.dryRun then return (s, ← (command settings s).dryRun)
          else (command settings s).activate := by
        simp only [Session.perform, command, hundo, hredo, hreport, Bool.false_eq_true, if_false]
        rfl
      have hreads : ∀ {x : StateM Desk Outcome}, ReadOnly x →
          ∀ d, ∃ o, (do return (s, ← x) : StateM Desk (Store × Outcome)) d = ((s, o), d) := by
        intro x hx d
        rw [bind_apply, hx d]
        exact ⟨_, rfl⟩
      cases hlist : settings.list with
      | true =>
        rw [hrest, if_pos hlist]
        exact Or.inr (Or.inr (hreads ((command settings s).readOnly_inspect _)))
      | false =>
        cases hdryRun : settings.dryRun with
        | true =>
          rw [hrest, if_neg (by simp [hlist]), if_pos hdryRun]
          exact Or.inr (Or.inr (hreads ((command settings s).readOnly_inspect _)))
        | false =>
          have hactivates : activates settings = true := by
            simp [activates, hundo, hredo, hreport, hlist, hdryRun]
          exact Or.inr (Or.inl ⟨hactivates, perform_of_activates (command settings s) hactivates⟩)

/-- The entry of a successful activation has well-formed texts, but perhaps for its backup. -/
theorem newEntry_repaired {o : Options} {path backup before : Bytes} {done : Activation} {d : Desk}
    (hnames : PlainNames d.names) (hpath : path.isUtf8 = true) (hrun : Activation.run before o = .ok done) :
    (newEntry o path backup before done.text d).repaired =
      { newEntry o path backup before done.text d with backup := Rune.repaired backup } := by
  obtain ⟨⟨hmarker, hanchor⟩, ⟨hkeyword, hname⟩, hscan⟩ := Activation.isUtf8_of_run hrun
  simp only [newEntry, entryOf, History.Entry.stamped, History.Entry.repaired, List.isEmpty_nil, if_true,
    Rune.repaired_of_isUtf8 hmarker, Rune.repaired_of_isUtf8 hanchor, Rune.repaired_of_isUtf8 hkeyword,
    Rune.repaired_of_isUtf8 hname, Rune.repaired_of_isUtf8 hscan, Rune.repaired_of_isUtf8 hpath,
    Rune.repaired_of_isUtf8 (hnames.isUtf8 d.named), Rune.repaired_of_isUtf8 (Digest.isUtf8_sha256 _)]

namespace Consistent

variable {home : Place} {s : Store} {d : Desk} {origin : Origin} {settings : Settings}

/-- An activation keeps the invariant, and if it fails it changes nothing that was there. -/
theorem activate (h : Consistent home s d origin) (hadmissible : Admissible home settings s d)
    (hactivates : activates settings = true) (hsmooth : Smooth (command settings s).activate d) :
    ∃ s' o d', (command settings s).activate d = ((s', o), d') ∧
      Consistent home s' d' (firstSeen origin d'.disk) ∧
      (o.failure ≠ none → s' = s ∧ ∀ r, d.disk.get? r ≠ none → d'.disk.get? r = d.disk.get? r) := by
  have hundone : ∀ u ∈ s.timeline.undone,
      Path.IsName u.id ∧ d.disk.isFolderAt (Store.snapshotAt home u.id) = false := by
    intro u hu
    obtain ⟨earlier, later, hsplit⟩ := List.append_of_mem (List.mem_of_mem_drop hu)
    have hsound := h.sound earlier u later hsplit
    obtain ⟨n, -, hid⟩ := hsound.named
    obtain ⟨-, -, before, -, -, -, -, -, -, -, -, hsnapshot⟩ := hsound.contents
    exact ⟨hid ▸ h.names.isName n, Disk.isFolderAt_of_content? hsnapshot⟩
  obtain ⟨o, disk, errors, hbacked, ⟨hfailed, hrun⟩ |
      ⟨hnone, before, done, p, mode, disk', hlook, hread, hdone, hp, hrecorded, hrun⟩⟩ :=
    activate_cases (a := command settings s) h.isName h.folder_eq (h.names.isName d.named) hundone h.slot_eq
      (defaultWriter_eq hadmissible.nvim) (hadmissible.restoreBackup hactivates) rfl rfl hsmooth
  · refine ⟨s, o, _, hrun, ?_, fun _ => ⟨rfl, fun r hr => hbacked.get?_eq hr⟩⟩
    exact h.of_backedUp hbacked (hadmissible.backup hactivates) rfl rfl
  · refine ⟨_, o, _, hrun, ?_, fun hfailed => absurd hnone hfailed⟩
    exact h.of_recorded hbacked (hadmissible.backup hactivates) hlook hread hp
      (hadmissible.target hactivates p (hbacked.locate_iff.1 hp)) hdone rfl rfl rfl
      (newEntry_repaired h.names (hadmissible.isUtf8 hactivates) hdone) hrecorded rfl rfl

/-- A command that changes nothing keeps the invariant. -/
theorem of_same (h : Consistent home s d origin) : Consistent home s d (firstSeen origin d.disk) := by
  have hnowhere : d.disk.locate [] = .error .missing := rfl
  refine h.of_backedUp (Or.inl rfl) (fun p (hp : d.disk.locate [] = .ok p) => ?_) rfl rfl
  rw [hnowhere] at hp
  cases hp

/-- A step along the history keeps the invariant. -/
theorem travelled (h : Consistent home s d origin) {dir : Direction} (hasked : dir.asked settings)
    (hnvim : settings.nvim = false) (hsmooth : Smooth (command settings s).perform d) :
    Consistent home ((command settings s).perform d).1.1 ((command settings s).perform d).2
      (firstSeen origin ((command settings s).perform d).2.disk) := by
  cases hstep : dir.step? s.timeline with
  | none =>
    obtain ⟨o, hperform, -⟩ := perform_of_none (a := command settings s) d hasked hstep
    rw [hperform]
    exact h.of_same
  | some step =>
    obtain ⟨e, t⟩ := step
    obtain ⟨p, b, new, summary, d', -, -, -, -, hperform, -, -, hconsistent⟩ :=
      h.travel hasked hnvim hstep hsmooth
    rw [hperform]
    exact hconsistent

/-- Every admissible command keeps the invariant, unless it is refused a change. -/
theorem perform (h : Consistent home s d origin) (hadmissible : Admissible home settings s d)
    (hsmooth : Smooth (command settings s).perform d) :
    Consistent home ((command settings s).perform d).1.1 ((command settings s).perform d).2
      (firstSeen origin ((command settings s).perform d).2.disk) := by
  rcases perform_cases s hadmissible.report with ⟨dir, hasked⟩ | ⟨hactivates, hperform⟩ | hreadOnly
  · exact h.travelled hasked hadmissible.nvim hsmooth
  · rw [hperform] at hsmooth ⊢
    obtain ⟨s', o, d', hrun, hconsistent, -⟩ := h.activate hadmissible hactivates hsmooth
    rw [hrun]
    exact hconsistent
  · obtain ⟨o, hrun⟩ := hreadOnly d
    rw [hrun]
    exact h.of_same

end Consistent

/-- The invariant holds in every state of a session. -/
theorem consistent_of_reached {project : Bytes} {s : Store} {d : Desk} {origin : Origin}
    (h : Reached project s d origin) :
    Path.isAbsolute project = true ∧ Consistent (Store.homeOf project) s d origin := by
  induction h with
  | start hproject hnames hload hempty => exact ⟨hproject, .of_start hproject hnames hload hempty⟩
  | reload _ hload ih => exact ⟨ih.1, ih.2.of_load ih.1 hload⟩
  | rest _ hdisk hnames hnamed ih => exact ⟨ih.1, ih.2.congr hdisk hnames hnamed⟩
  | call _ settings hadmissible hrefused ih =>
    exact ⟨ih.1, ih.2.perform hadmissible (congrArg List.length hrefused)⟩

/-- **Files follow the history through every session.** In every state, a file holds what the recorded
activations in force that touch it make of what it held at first; so every activation in force can be undone
and every undone one repeated, to the byte, an activation that fails changes nothing that was there, and
backups that are no test files keep what they hold. -/
theorem timeTravel_of_reached {project : Bytes} {s : Store} {d : Desk} {origin : Origin}
    (h : Reached project s d origin) : TimeTravel (Store.homeOf project) s d origin := by
  obtain ⟨-, hconsistent⟩ := consistent_of_reached h
  have hcontents : ∀ p b, ¬ Store.homeOf project <+: p → origin p = some b →
      d.disk.content? p = replay (touching d.disk p (s.timeline.entries.take s.timeline.done)) b := by
    intro p b hp hb
    obtain ⟨c, hc, hreplay⟩ := hconsistent.contents p b hp hb
    rw [hc, hreplay]
  refine ⟨hcontents, hconsistent.seen, ?_, ?_, ?_⟩
  · intro dir settings e t hasked hnvim hstep hrefused
    obtain ⟨p, b, c, summary, d', hp, -, hb, hc, hperform, hcontent, hothers, -⟩ :=
      hconsistent.travel hasked hnvim hstep (congrArg List.length hrefused)
    rw [hperform]
    exact ⟨rfl, rfl, p, b, c, hp, hb, hc, hcontent, fun r hr hrp =>
      hothers r (Consistent.ne_of_outside hr).1 hrp⟩
  · intro settings hadmissible hactivates hrefused hfailed
    rw [perform_of_activates (command settings s) hactivates] at hrefused hfailed ⊢
    obtain ⟨s', o, d', hrun, -, hkept⟩ :=
      hconsistent.activate hadmissible hactivates (congrArg List.length hrefused)
    rw [hrun] at hfailed ⊢
    exact hkept hfailed
  · intro p b hp hb huntouched
    have hnone : touching d.disk p (s.timeline.entries.take s.timeline.done) = [] := by
      rw [touching, List.filter_eq_nil_iff]
      exact fun e he hleads => huntouched e he (leadsTo_iff.1 hleads)
    rw [hcontents p b hp hb, hnone]
    rfl

/-! ### Sessions in and out of bounds -/

/-- The names of a machine that counts. -/
def numbered (n : Nat) : Bytes := "op-" ++ Bytes.ofNat n

theorem plainNames_numbered : PlainNames numbered := by
  have hsplit : ∀ n, numbered n = 0x6f :: 0x70 :: 0x2d :: Bytes.ofNat n := fun _ => rfl
  have hdigits : ∀ n, ∀ b ∈ Bytes.ofNat n, Bytes.isDigit b = true :=
    fun n => List.all_eq_true.1 (Bytes.all_isDigit_ofNat n)
  have hdigit : ∀ {b : UInt8}, Bytes.isDigit b = true → b < 0x80 ∧ b ≠ Bytes.slash := by
    intro b hb
    simp only [Bytes.isDigit, Bool.and_eq_true, decide_eq_true_eq, UInt8.le_iff_toNat_le,
      UInt8.reduceToNat] at hb
    simp only [UInt8.lt_iff_toNat_lt, ne_eq, ← UInt8.toNat_inj, UInt8.reduceToNat, Bytes.slash]
    omega
  refine ⟨fun m n h => ?_, fun n => ⟨by simp [hsplit], ?_, by simp [hsplit, Path.dot],
    by simp [hsplit, Path.dotdot]⟩, fun n => ?_⟩
  · have hnat : Bytes.ofNat m = Bytes.ofNat n := by simpa [hsplit] using h
    rw [← Bytes.digitsValue_ofNat m, hnat, Bytes.digitsValue_ofNat]
  · rw [hsplit]
    simp only [List.mem_cons, not_or]
    exact ⟨by decide, by decide, by decide, fun h => (hdigit (hdigits n _ h)).2 rfl⟩
  · rw [hsplit]
    apply Bytes.isUtf8_of_ascii
    simp only [List.forall_mem_cons]
    exact ⟨by decide, by decide, by decide, fun b hb => (hdigit (hdigits n b hb)).1⟩

/-- Settings that activate the group `a` of a test file at the root. -/
def sampleSettings : Settings :=
  { marker := "/*", anchor := "z", keyword := "d", name := "a", file := "/t.js" }

/-- A history without activations. -/
def freshStore : Store := ⟨"/.focus", .empty⟩

/-- A desk with a test file, and perhaps more. -/
def freshDesk (more : List (Place × Files.Entry)) : Desk where
  disk := { entries :=
    ([".focus"], .folder 0o755) :: (["t.js"], .file 0o644 "/*d('a', () => \x7b\x7d);*/d('z'") :: more }
  names := numbered

/-- A step along the history is admissible in every state of a session. -/
theorem admissible_undo (home : Place) (s : Store) (d : Desk) : Admissible home { undo := true } s d := by
  refine ⟨rfl, rfl, ?_, ?_, ?_, ?_⟩ <;> exact fun h => absurd h (by decide)

/-- So is an activation of a file outside the history, with its backup there as well. -/
theorem admissible_of_outside {home : Place} {settings : Settings} {s : Store} {d : Desk} (file : Bytes) (p q : Place)
    (hreport : settings.report = []) (hnvim : settings.nvim = false) (hrestore : settings.restoreBackup = false)
    (htarget : ((command settings s).target d).1 = file) (hfile : file.isUtf8 = true)
    (hp : d.disk.locate file = .ok p) (hq : d.disk.locate (settings.backupPath file) = .ok q)
    (hoff : ¬ home <+: p ∧ ¬ home <+: q) : Admissible home settings s d := by
  subst htarget
  refine ⟨hreport, hnvim, fun _ => hrestore, fun _ => hfile, fun _ r hr => ?_, fun _ r hr => ?_⟩
  · obtain rfl := Except.ok.inj (hp.symm.trans hr)
    exact hoff.1
  · obtain rfl := Except.ok.inj (hq.symm.trans hr)
    exact hoff.2

/-- Settings that activate a group of a second test file. -/
def otherSettings (name : Bytes) : Settings := { sampleSettings with file := "/u.js", name := name }

theorem admissible_sampleSettings (s : Store) (d : Desk) : Admissible (Store.homeOf "/") sampleSettings s d :=
  admissible_of_outside "/t.js" ["t.js"] ["t.js.backup"] rfl rfl rfl rfl (by decide) rfl rfl (by decide)

theorem admissible_otherSettings (name : Bytes) (s : Store) (d : Desk) :
    Admissible (Store.homeOf "/") (otherSettings name) s d :=
  admissible_of_outside "/u.js" ["u.js"] ["u.js.backup"] rfl rfl rfl rfl (by decide) rfl rfl (by decide)

/-- A command is performed, with a name for what comes of it: a state of a long session is not taken apart then. -/
theorem Reached.call_eq {project : Bytes} {s : Store} {d : Desk} {origin : Origin} (h : Reached project s d origin)
    {settings : Settings} (r : (Store × Outcome) × Desk) (hr : (command settings s).perform d = r)
    (hadmissible : Admissible (Store.homeOf project) settings s d) (hrefused : r.2.refused = d.refused) :
    Reached project r.1.1 r.2 (firstSeen origin r.2.disk) := by
  subst hr
  exact h.call settings hadmissible hrefused

/-- A file is activated, that is undone, and the history is opened again. Another group of the file takes the place of
the first, and a second file is activated behind it. -/
theorem timeTravel_of_reached_branched :
    let start := freshDesk [(["u.js"], .file 0o644 "/*d('a', () => \x7b\x7d);d('b', () => \x7b\x7d);*/d('z'")]
    let first := (command (otherSettings "a") freshStore).perform start
    let undone := (command { undo := true } first.1.1).perform first.2
    ∃ s d, (Store.load "/" : ExceptT Failure (StateM Desk) Store).run undone.2 = (.ok s, d) ∧
      let second := (command (otherSettings "b") s).perform d
      let last := (command sampleSettings second.1.1).perform second.2
      (last.1.1.timeline.index = 1 ∧
        last.1.1.timeline.entries.map (fun e => (e.path, e.name)) =
          [(Bytes.ofString "/u.js", Bytes.ofString "b"), (Bytes.ofString "/t.js", Bytes.ofString "a")] ∧
        last.2.disk.content? ["u.js"] =
          some "//\nd('b', () => \x7b\x7d);\n/*d('a', () => \x7b\x7d);*/d('z'" ∧
        last.2.disk.content? ["t.js"] = some "//\nd('a', () => \x7b\x7d);\n/**/d('z'") ∧
      TimeTravel (Store.homeOf "/") last.1.1 last.2
        ([first.2.disk, undone.2.disk, second.2.disk, last.2.disk].foldl firstSeen start.disk.content?) := by
  intro start first undone
  have hstart : Reached "/" freshStore start start.disk.content? :=
    .start (d := start) rfl plainNames_numbered rfl rfl
  have hrefused : first.2.refused = start.refused ∧ undone.2.refused = first.2.refused ∧
      ((Store.loadTimeline (Store.fileIn (Store.folderOf "/")) :
        ExceptT Failure (StateM Desk) Timeline).run undone.2).1.toOption = some undone.1.1.timeline := by
    decide +kernel
  have hfirst := hstart.call_eq first rfl (admissible_otherSettings _ _ _) hrefused.1
  have hundone := hfirst.call_eq undone rfl (admissible_undo _ _ _) hrefused.2.1
  have hload := (consistent_of_reached hundone).2.run_load rfl hrefused.2.2
  refine ⟨_, _, hload, ?_⟩
  intro second last
  obtain ⟨hrefused', hrefused'', hend⟩ : second.2.refused = undone.2.refused ∧ last.2.refused = second.2.refused ∧
      last.1.1.timeline.index = 1 ∧
      last.1.1.timeline.entries.map (fun e => (e.path, e.name)) =
        [(Bytes.ofString "/u.js", Bytes.ofString "b"), (Bytes.ofString "/t.js", Bytes.ofString "a")] ∧
      last.2.disk.content? ["u.js"] =
        some "//\nd('b', () => \x7b\x7d);\n/*d('a', () => \x7b\x7d);*/d('z'" ∧
      last.2.disk.content? ["t.js"] = some "//\nd('a', () => \x7b\x7d);\n/**/d('z'" := by
    decide +kernel
  have hsecond := (hundone.reload hload).call_eq second rfl (admissible_otherSettings "b" _ _) hrefused'
  have hlast := hsecond.call_eq last rfl (admissible_sampleSettings _ _) hrefused''
  exact ⟨hend, timeTravel_of_reached hlast⟩

/-- Two sessions out of bounds. A backup in the history, here the file of the timeline itself, does not keep
what it holds. And where activations were recorded before the session, files do not start from what they held
before them. -/
theorem timeTravel_fails_in_history :
    (let settings := { sampleSettings with backup := "/.focus/state.json" }
      let d := freshDesk [(Store.fileAt (Store.homeOf "/"), .file 0o644 [])]
      let r := (command settings freshStore).perform d
      (Store.load "/" : ExceptT Failure (StateM Desk) Store).run d = (.ok freshStore, d) ∧
        r.1.2.failure = none ∧ r.2.refused = d.refused ∧
        d.disk.locate (settings.backupPath "/t.js") = .ok (Store.fileAt (Store.homeOf "/")) ∧
        d.disk.content? (Store.fileAt (Store.homeOf "/")) = some [] ∧
        r.2.disk.content? (Store.fileAt (Store.homeOf "/")) ≠ some []) ∧
    ((Store.load "/" : ExceptT Failure (StateM Desk) Store).run sampleDesk = (.ok sampleStore, sampleDesk) ∧
      sampleDesk.disk.content? ["a"] = some "z" ∧
      replay (touching sampleDesk.disk ["a"] (sampleStore.timeline.entries.take sampleStore.timeline.done)) "z" ≠
        some "z") := by
  refine ⟨⟨rfl, rfl, rfl, rfl, rfl, ?_⟩, ?_, rfl, ?_⟩
  · intro h
    have htext : some (Timeline.text _) = some [] := h
    exact Timeline.text_ne_nil _ (Option.some.inj htext)
  · have hmake : (Files.during "could not create state directory"
        (Files.lift (MonadFiles.makeFolders (Store.folderOf "/"))) : ExceptT Failure (StateM Desk) Unit).run
          sampleDesk = (.ok (), sampleDesk) := rfl
    have hload : (Store.loadTimeline (Store.fileIn (Store.folderOf "/")) :
        ExceptT Failure (StateM Desk) Timeline).run sampleDesk = (.ok sampleStore.timeline, sampleDesk) :=
      isStored_sampleStore
    rw [Store.load, run_bind, hmake]
    dsimp only
    rw [run_bind, hload]
    rfl
  · have hreplay : replay (touching sampleDesk.disk ["a"]
        (sampleStore.timeline.entries.take sampleStore.timeline.done)) "z" = none := rfl
    rw [hreplay]
    simp

end Spotlight.Session
