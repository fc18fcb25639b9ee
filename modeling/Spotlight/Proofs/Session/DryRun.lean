import Spotlight.Proofs.Patch.Applying
import Spotlight.Proofs.Session.RollBack

/-!
# A dry run predicts the activation

A dry run looks into the test file, as an activation does, and shows the change as a diff. It changes nothing.

* `Session.Hands` — an activation hands one text to its writer, and nothing else is written but the backup and
  the history;
* `Session.Predicts` — what a dry run tells of the activation;
* `Session.activate_congr` — two writers that make the same of the text make the same activation;
* `Session.predicts_dryRun` — a dry run predicts the activation, and its diff leads from the text of the file to
  the text that is handed to the writer.
-/

namespace Spotlight.Session

open Files Bytes

/-- An activation hands its writer this one text for the test file, whatever the way of writing: another writer
that makes the same of the text makes the same activation. If the activation does not fail, the text is written
after the backup was made at most, and nothing happens afterwards but that the history is recorded. -/
structure Hands (a : Session (StateM Desk)) (d : Desk) (before text : Bytes) : Prop where
  congr : ∀ write : Writer (StateM Desk), write (a.target d).1 text = a.write (a.target d).1 text →
    ({ a with write := write } : Session (StateM Desk)).activate d = a.activate d
  written : (a.activate d).1.2.failure = none → ∃ d₁ d₂, BackedUp (a.settings.backupPath (a.target d).1)
      d.disk d₁.disk ∧ (a.write (a.target d).1 text).run d₁ = (.ok (), d₂) ∧
    (a.activate d).2 = (a.remember (entryOf a.settings.options (a.target d).1
      (a.settings.backupPath (a.target d).1) before text) before d₂).2

/-- What a dry run tells of the activation, where the test file holds `content`: nothing is changed, and it fails
for the reason for which the search for the group fails, in which case the activation fails too and hands nothing
to its writer; else the output leads from the text of the file to the text that the activation hands over. -/
structure Predicts (a : Session (StateM Desk)) (d : Desk) (content : Bytes) : Prop where
  unchanged : (a.dryRun d).2 = d
  failure_iff : (a.dryRun d).1.failure ≠ none ↔
    ∃ fault, Activation.run content a.settings.options = .error fault
  of_error : ∀ fault, Activation.run content a.settings.options = .error fault →
    (a.dryRun d).1.failure = some (.activation fault) ∧ (a.activate d).1.2.failure ≠ none ∧
      ∀ write, ({ a with write := write } : Session (StateM Desk)).activate d = a.activate d
  of_ok : ∀ done, Activation.run content a.settings.options = .ok done →
    (a.dryRun d).1.summary.output = Patch.unified (a.shownTarget d) content done.text ∧
      (a.dryRun d).1.summary.disabled = done.disabled ∧
      (lf ∉ a.shownTarget d → Patch.Leads (a.shownTarget d) content done.text (a.dryRun d).1.summary.output) ∧
      a.Hands d content done.text

section

variable {a : Session (StateM Desk)} {d : Desk} {content : Bytes}

/-! ### The dry run -/

/-- Looking into a test file that can be read. -/
theorem inspect_apply (hread : d.disk.read (a.target d).1 = .ok content)
    (act : Summary → Bytes → Except Fault Summary) :
    (a.inspect act d).1 = match act { path := a.shownTarget d } content with
      | .ok summary => ⟨summary, none⟩
      | .error .malformedName => .crash
      | .error fault => ⟨Summary.add { path := a.shownTarget d } (a.diagnostic (.activation fault)),
          some (.activation fault)⟩ := by
  have htarget : a.target d = ((a.target d).1, d) := Prod.ext rfl (a.readOnly_target d)
  have hcontent : (readTarget (a.target d).1 : ExceptT Failure (StateM Desk) Bytes).run d = (.ok content, d) := by
    rw [run_readTarget, hread]
    rfl
  rw [inspect, bind_apply, htarget]
  dsimp only
  rw [bind_apply, relativize_apply]
  dsimp only
  rw [bind_apply, hcontent]
  dsimp only
  rw [shownTarget]
  cases act { path := (Path.relative? d.disk.herePath (a.target d).1).getD (a.target d).1 } content with
  | ok summary => rfl
  | error fault => cases fault <;> rfl

theorem dryRun_of_error (hread : d.disk.read (a.target d).1 = .ok content) {fault : Fault}
    (hrun : Activation.run content a.settings.options = .error fault) :
    (a.dryRun d).1.failure = some (.activation fault) := by
  rw [dryRun, inspect_apply hread, hrun]
  cases fault <;> rfl

theorem dryRun_of_ok (hread : d.disk.read (a.target d).1 = .ok content) {done : Activation}
    (hrun : Activation.run content a.settings.options = .ok done) :
    (a.dryRun d).1 = ⟨{ path := a.shownTarget d, output := Patch.unified (a.shownTarget d) content done.text,
                        disabled := done.disabled }, none⟩ := by
  rw [dryRun, inspect_apply hread, hrun]
  rfl

/-! ### The activation -/

/-- Only what a writer makes of the text counts in a change. -/
theorem change_congr {write : Writer (StateM Desk)} {path before : Bytes}
    (h : ∀ done, Activation.run before a.settings.options = .ok done →
      write path done.text = a.write path done.text) (summary : Summary) (backup : Bytes) :
    ({ a with write := write } : Session (StateM Desk)).change summary path backup before =
      a.change summary path backup before := by
  unfold change
  dsimp only
  congr 1
  funext _
  cases hrun : Activation.run before a.settings.options with
  | error fault => cases fault <;> rfl
  | ok done =>
    dsimp only
    rw [h done hrun]
    rfl

/-- Two writers that make the same of the text make the same activation. -/
theorem activate_congr {write : Writer (StateM Desk)} (hread : d.disk.read (a.target d).1 = .ok content)
    (h : ∀ done, Activation.run content a.settings.options = .ok done →
      write (a.target d).1 done.text = a.write (a.target d).1 done.text) :
    ({ a with write := write } : Session (StateM Desk)).activate d = a.activate d := by
  obtain ⟨r, d₁, hopen, hbacked, hr⟩ := a.openTarget_backedUp d (a.target d).1
    (a.settings.backupPath (a.target d).1) { path := a.shownTarget d }
  -- the other session opens the same file
  obtain ⟨b, hb⟩ : ∃ b : Session (StateM Desk), b = { a with write := write } := ⟨_, rfl⟩
  have hopen' : (b.openTarget (b.target d).1 (b.settings.backupPath (b.target d).1) { path := b.shownTarget d }).run d =
      (r, d₁) := by
    rw [hb]
    exact hopen
  rw [← hb, b.activate_eq, hopen', a.activate_eq, hopen, hb]
  cases r with
  | error outcome => rfl
  | ok before =>
    -- what was opened is what was read, for a backup overwrites nothing
    obtain rfl : before = content := Except.ok.inj ((hr before rfl).symm.trans (hbacked.read_of_ok hread))
    exact congrFun (change_congr h _ _) d₁

/-- Opening the test file says why it failed. -/
theorem failure_of_openTarget {path backup : Bytes} {summary : Summary} {o : Outcome} {d' : Desk}
    (h : (a.openTarget path backup summary).run d = (.error o, d')) : o.failure ≠ none := by
  obtain ⟨errors, hrun⟩ := a.run_openTarget d path backup summary
  rw [hrun] at h
  cases hlook : d.disk.look path with
  | error fault =>
    rw [hlook] at h
    cases h
    simp [Outcome.failed]
  | ok status =>
    rw [hlook] at h
    dsimp only at h
    rcases hensure : (ensureBackup path backup (!a.settings.restoreBackup) :
      ExceptT Failure (StateM Desk) Bool).run d with ⟨failure | created, d₁⟩
    · rw [hensure] at h
      cases h
      simp [Outcome.failed]
    · rw [hensure] at h
      dsimp only at h
      cases hread : d₁.disk.read path with
      | error fault =>
        rw [hread] at h
        cases h
        simp
      | ok content =>
        rw [hread] at h
        cases h

/-- A failure that is rolled back stays a failure. -/
theorem failure_of_rollBack (a : Session (StateM Desk)) (summary : Summary) (path backup before : Bytes)
    (failure : Failure) (d : Desk) : (a.rollBack summary path backup before failure d).1.failure ≠ none := by
  rw [rollBack, bind_apply]
  generalize (a.putBack path backup before).run d = r
  obtain ⟨second | _, d'⟩ := r
  · simp
  · simp

/-- What an activation comes to that does not fail: the text of the file was found, and handed to the writer
behind at most a backup, and then the change was recorded. -/
theorem activate_of_none (hread : d.disk.read (a.target d).1 = .ok content)
    (hnone : (a.activate d).1.2.failure = none) :
    ∃ done d₁ d₂, Activation.run content a.settings.options = .ok done ∧
      BackedUp (a.settings.backupPath (a.target d).1) d.disk d₁.disk ∧
      (a.write (a.target d).1 done.text).run d₁ = (.ok (), d₂) ∧
      (a.activate d).2 = (a.remember (entryOf a.settings.options (a.target d).1
        (a.settings.backupPath (a.target d).1) content done.text) content d₂).2 := by
  obtain ⟨r, d₁, hopen, hbacked, hr⟩ := a.openTarget_backedUp d (a.target d).1
    (a.settings.backupPath (a.target d).1) { path := a.shownTarget d }
  rw [a.activate_eq, hopen] at hnone ⊢
  cases r with
  | error outcome => exact absurd hnone (failure_of_openTarget hopen)
  | ok before =>
    obtain rfl : before = content := Except.ok.inj ((hr before rfl).symm.trans (hbacked.read_of_ok hread))
    dsimp only at hnone ⊢
    obtain ⟨errors, summary', happly⟩ := a.change_apply d₁ { path := a.shownTarget d } (a.target d).1
      (a.settings.backupPath (a.target d).1) before
    rw [happly] at hnone ⊢
    cases hrun : Activation.run before a.settings.options with
    | error fault =>
      rw [hrun] at hnone
      exfalso
      split at hnone
      · simp [Outcome.crash] at hnone
      · exact failure_of_rollBack _ _ _ _ _ _ _ hnone
      · rename_i heq
        cases heq
    | ok done =>
      rw [hrun] at hnone
      dsimp only at hnone ⊢
      rcases hwrite : (a.write (a.target d).1 done.text).run { d₁ with errors := errors } with ⟨failure | _, d₂⟩
      · rw [hwrite] at hnone
        exact absurd hnone (failure_of_rollBack _ _ _ _ _ _ _)
      · exact ⟨done, { d₁ with errors := errors }, d₂, rfl, hbacked, hwrite, rfl⟩

/-- The text that the search finds is handed to the writer. -/
theorem hands_of_ok (hread : d.disk.read (a.target d).1 = .ok content) {done : Activation}
    (hrun : Activation.run content a.settings.options = .ok done) : a.Hands d content done.text where
  congr write hwrite := by
    refine activate_congr hread fun done' hdone => ?_
    obtain rfl := Except.ok.inj (hrun.symm.trans hdone)
    exact hwrite
  written hnone := by
    obtain ⟨done', d₁, d₂, hdone, hbacked, hwrite, heq⟩ := activate_of_none hread hnone
    obtain rfl := Except.ok.inj (hrun.symm.trans hdone)
    exact ⟨d₁, d₂, hbacked, hwrite, heq⟩

/-- **A dry run predicts the activation.** The diffs it shows lead from one text to the other whatever the texts
are, and on every desk on which the test file can be read it changes nothing, fails exactly if the search for the
group fails, and else shows the diff to the text that the activation hands to its writer. -/
theorem predicts_dryRun :
    (∀ path old new : Bytes, lf ∉ path → Patch.Leads path old new (Patch.unified path old new)) ∧
    ∀ (a : Session (StateM Desk)) (d : Desk) (content : Bytes),
      d.disk.read (a.target d).1 = .ok content → a.Predicts d content := by
  refine ⟨fun path old new hpath => Patch.leads_unified hpath, fun a d content hread => ?_⟩
  refine ⟨a.readOnly_inspect _ d, ?_, fun fault hrun => ?_, fun done hrun => ?_⟩
  · cases hrun : Activation.run content a.settings.options with
    | error fault =>
      rw [dryRun_of_error hread hrun]
      simp
    | ok done =>
      rw [dryRun_of_ok hread hrun]
      simp
  · have hnever : ∀ done, Activation.run content a.settings.options ≠ .ok done := by
      intro done hdone
      rw [hrun] at hdone
      cases hdone
    refine ⟨dryRun_of_error hread hrun, fun hnone => ?_, fun write => activate_congr hread fun done hdone =>
      absurd hdone (hnever done)⟩
    obtain ⟨done, -, -, hdone, -⟩ := activate_of_none hread hnone
    exact hnever done hdone
  · rw [dryRun_of_ok hread hrun]
    exact ⟨rfl, rfl, fun hpath => Patch.leads_unified hpath, hands_of_ok hread hrun⟩

end

/-- A text whose only line has no end, against one with two empty lines more; and a dry run that finds a group, in
a file whose path is shown without its slash. -/
theorem predicts_dryRun_sample :
    (lf ∉ Bytes.ofString "t.js" ∧ Patch.Leads "t.js" "a" "a\n\n" (Patch.unified "t.js" "a" "a\n\n")) ∧
    (let a := command { sampleSettings with dryRun := true } freshStore
      let d := freshDesk []
      d.disk.read (a.target d).1 = .ok "/*d('a', () => \x7b\x7d);*/d('z'" ∧ a.shownTarget d = "t.js" ∧
        (a.dryRun d).1.failure = none ∧ (a.activate d).1.2.failure = none ∧
        a.Predicts d "/*d('a', () => \x7b\x7d);*/d('z'") := by
  have hpath : lf ∉ Bytes.ofString "t.js" := by decide
  refine ⟨⟨hpath, predicts_dryRun.1 _ _ _ hpath⟩, rfl, by decide +kernel, ?_, by decide +kernel,
    predicts_dryRun.2 _ _ _ rfl⟩
  have hfind : (Activation.run "/*d('a', () => \x7b\x7d);*/d('z'" sampleSettings.options).toBool = true := by
    decide +kernel
  cases hrun : Activation.run "/*d('a', () => \x7b\x7d);*/d('z'" sampleSettings.options with
  | error fault =>
    rw [hrun] at hfind
    cases hfind
  | ok done =>
    have hdry := dryRun_of_ok (a := command { sampleSettings with dryRun := true } freshStore) (d := freshDesk [])
      rfl hrun
    rw [hdry]

end Spotlight.Session
