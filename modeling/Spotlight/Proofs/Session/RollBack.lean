import Spotlight.Proofs.Session.TimeTravel

/-!
# A failed activation is rolled back

An activation can fail before anything is written, in the search for the group, or when the file is written.
Whatever the writer leaves of the file then, it is put back: as it was, or as the backup holds it where the
settings say so. What stands in place of a backup need not be a file that can be read. It passes for a backup
all the same, and then nothing is put back, which the failure tells.

* `Session.Writer.Contained` — a way to write files that changes no other file when it fails;
* `Session.Writer.ToldApart` — do digests tell what it leaves from what the file held?
* `Session.PutBack` — a file holds a content again, and no other place has changed;
* `Session.Apart` — do the test file, its backup and the history keep out of each other's way?
* `Session.Unrestored` — what is left where the backup could not be put back;
* `Session.rolledBack_of_perform` — a failed activation leaves the history, the backup and the test file as
  they are to be (`Session.RolledBack`).
-/

namespace Spotlight.Session

open Files History

/-! ### Writers that fail -/

/-- A way to write files that, when it fails, has changed at most the file it was given. That file may hold
anything then, or be gone. -/
structure Writer.Contained (write : Writer (StateM Desk)) : Prop where
  agreeOff : ∀ {path content : Bytes} {failure : Failure} {d d' : Desk} {p : Place},
    d.disk.locate path = .ok p → d.disk.isFolderAt p = false →
    (write path content).run d = (.error failure, d') → Disk.AgreeOff p d.disk d'.disk

/-- Do digests tell what the writer leaves of a file, when it fails, from what the file held? -/
structure Writer.ToldApart (write : Writer (StateM Desk)) (path before : Bytes) : Prop where
  eq_of_digest : ∀ {content left : Bytes} {failure : Failure} {d d' : Desk}, d.disk.read path = .ok before →
    (write path content).run d = (.error failure, d') → d'.disk.read path = .ok left →
    Digest.sha256 left = Digest.sha256 before → left = before

/-! ### Putting a file back -/

/-- The file at a place holds a content, and no other place has changed. -/
structure PutBack (p : Place) (content : Bytes) (d d' : Disk) : Prop where
  agreeOff : Disk.AgreeOff p d d'
  content?_eq : d'.content? p = some content

theorem PutBack.set {d : Disk} {p : Place} (hp : d.isFolderAt p = false) (mode : Nat) (content : Bytes) :
    PutBack p content d (d.set p (.file mode content)) where
  agreeOff := .set hp mode content
  content?_eq := by rw [Disk.content?_set d hp, if_pos rfl]

section

variable {d : Desk} {path backup before : Bytes} {p : Place}

theorem holds_apply (d : Desk) (path content : Bytes) : (holds path content : StateM Desk Bool) d =
    (match d.disk.read path with
      | .ok old => Digest.sha256 old == Digest.sha256 content
      | .error _ => false, d) := by
  rw [holds, bind_apply, read_apply]
  cases d.disk.read path <;> rfl

/-- A content is put back where digests tell it from what is there. -/
theorem putBack_of_restoreContent (hworks : d.disk.Replaceable path p)
    (htold : ∀ left, d.disk.read path = .ok left → Digest.sha256 left = Digest.sha256 before → left = before) :
    ∃ disk, (restoreContent path before : ExceptT Failure (StateM Desk) Unit).run d =
      (.ok (), { d with disk := disk }) ∧ PutBack p before d.disk disk := by
  have hholds := holds_apply d path before
  rw [restoreContent, run_bind, run_liftM]
  dsimp only
  cases hheld : ((holds path before : StateM Desk Bool) d).1 with
  | true =>
    refine ⟨d.disk, by rw [if_pos rfl, hholds]; rfl, .refl hworks.isFolderAt_eq, ?_⟩
    rw [hholds] at hheld
    cases hread : d.disk.read path with
    | error fault =>
      rw [hread] at hheld
      cases hheld
    | ok left =>
      rw [hread] at hheld
      rw [← htold left hread (beq_iff_eq.1 hheld)]
      exact (Disk.read_iff_content? hworks.locate_eq).1 hread
  | false =>
    obtain ⟨mode, hwrite⟩ := run_write d path before
    rw [if_neg (by simp), hholds]
    dsimp only
    rw [hwrite, change_of_ok (hworks.replace_eq before mode)]
    exact ⟨_, rfl, .set hworks.isFolderAt_eq mode before⟩

/-- A backup is put back if it can be read; else that fails, and nothing changes. -/
theorem putBack_of_restore (hworks : d.disk.Replaceable path p) (backup : Bytes) :
    ∃ r disk, (restore backup path : ExceptT Failure (StateM Desk) Unit).run d = (r, { d with disk := disk }) ∧
      Disk.AgreeOff p d.disk disk ∧
      (∀ content, d.disk.read backup = .ok content → PutBack p content d.disk disk) ∧
      ((∀ content, d.disk.read backup ≠ .ok content) → disk = d.disk ∧ ∃ second, r = .error second) := by
  have hrefl := Disk.AgreeOff.refl hworks.isFolderAt_eq
  rw [restore, run_bind, run_liftM, look_apply]
  dsimp only
  split
  · rename_i hlook
    refine ⟨_, d.disk, rfl, hrefl, fun content hread => ?_, fun _ => ⟨rfl, _, rfl⟩⟩
    obtain ⟨status, hstatus⟩ := Disk.look_of_read hread
    rw [hlook] at hstatus
    cases hstatus
  · rw [run_copy]
    cases hread : d.disk.read backup with
    | error fault =>
      exact ⟨_, d.disk, rfl, hrefl, fun content hcontent => by (cases hcontent), fun _ => ⟨rfl, _, rfl⟩⟩
    | ok content =>
      obtain ⟨status, hstatus⟩ := Disk.look_of_read hread
      rw [hstatus]
      dsimp only
      rw [change_of_ok (hworks.replace_eq content status.mode)]
      have hput : PutBack p content d.disk _ := .set hworks.isFolderAt_eq status.mode content
      refine ⟨_, _, rfl, hput.agreeOff, fun content' hcontent => ?_, fun hnone => absurd rfl (hnone content)⟩
      cases hcontent
      exact hput

/-! ### Rolling back -/

variable {a : Session (StateM Desk)} {summary : Summary}

/-- The test file is put back: as it was, or as its backup holds it. Where the backup cannot be read nothing
changes, and the outcome tells of both failures. -/
theorem rollBack_cases (hworks : d.disk.Replaceable path p)
    (htold : ∀ left, d.disk.read path = .ok left → Digest.sha256 left = Digest.sha256 before → left = before)
    (summary : Summary) (backup : Bytes) (failure : Failure) :
    ∃ o disk, a.rollBack summary path backup before failure d = (o, { d with disk := disk }) ∧
      Disk.AgreeOff p d.disk disk ∧ (a.settings.restoreBackup = false → disk.content? p = some before) ∧
      (a.settings.restoreBackup = true →
        (∀ content, d.disk.read backup = .ok content → disk.content? p = some content) ∧
        ((∀ content, d.disk.read backup ≠ .ok content) →
          disk = d.disk ∧ ∃ second, o.failure = some (.both failure second))) := by
  have hreturn : ∀ {r : Except Failure Unit} {disk : Disk},
      (a.putBack path backup before).run d = (r, { d with disk := disk }) →
      ∃ o, a.rollBack summary path backup before failure d = (o, { d with disk := disk }) ∧
        ∀ second, r = .error second → o.failure = some (.both failure second) := by
    intro r disk hput
    rw [rollBack, bind_apply, hput]
    cases r with
    | ok _ => exact ⟨_, rfl, fun second h => by cases h⟩
    | error second =>
      refine ⟨_, rfl, fun second' h => ?_⟩
      cases h
      rfl
  cases hrestore : a.settings.restoreBackup with
  | false =>
    obtain ⟨disk, hrun, hput⟩ := putBack_of_restoreContent hworks htold
    obtain ⟨o, ho, -⟩ := hreturn (by rw [putBack, if_neg (by simp [hrestore]), hrun])
    exact ⟨o, disk, ho, hput.agreeOff, fun _ => hput.content?_eq, fun hback => by cases hback⟩
  | true =>
    obtain ⟨r, disk, hrun, hagree, hput, hkept⟩ := putBack_of_restore hworks backup
    obtain ⟨o, ho, htold⟩ := hreturn (by rw [putBack, if_pos hrestore, hrun])
    refine ⟨o, disk, ho, hagree, fun hback => by (cases hback),
      fun _ => ⟨fun content hread => (hput content hread).content?_eq, fun hnone => ?_⟩⟩
    obtain ⟨hsame, second, hsecond⟩ := hkept hnone
    exact ⟨hsame, second, htold second hsecond⟩

/-- What is left by a change that failed and could not be rolled back, from `before` in the file at `path`. The
outcome tells of both failures. Where the search for the group failed nothing has changed, and else all is as the
writer left it. -/
structure Unrestored (a : Session (StateM Desk)) (path before : Bytes) (disk : Disk) (o : Outcome) (d' : Desk) :
    Prop where
  searched : ∀ fault, Activation.run before a.settings.options = .error fault →
    d'.disk = disk ∧ ∃ second, o.failure = some (.both (.activation fault) second)
  written : ∀ done, Activation.run before a.settings.options = .ok done → ∃ failure second d₁ d₂,
    d₁.disk = disk ∧ (a.write path done.text).run d₁ = (.error failure, d₂) ∧ d'.disk = d₂.disk ∧
      o.failure = some (.both failure second)

/-- A change that fails is rolled back. Where the search for the group breaks down there is nothing to roll
back. -/
theorem change_of_failed (hread : d.disk.read path = .ok before) (hworks : d.disk.Replaceable path p)
    (hcontained : a.write.Contained) (htold : a.write.ToldApart path before)
    (hbackup : d.disk.locate backup ≠ .ok p)
    (hfailed : (a.change summary path backup before d).1.2.failure ≠ none) :
    ∃ o d', a.change summary path backup before d = ((a.store, o), d') ∧ Disk.AgreeOff p d.disk d'.disk ∧
      (a.settings.restoreBackup = false ∨ Activation.run before a.settings.options = .error .malformedName →
        d'.disk.content? p = some before) ∧
      (a.settings.restoreBackup = true → Activation.run before a.settings.options ≠ .error .malformedName →
        (∀ content, d.disk.read backup = .ok content → d'.disk.content? p = some content) ∧
        ((∀ content, d.disk.read backup ≠ .ok content) → Unrestored a path before d.disk o d')) := by
  have hcontent : d.disk.content? p = some before := (Disk.read_iff_content? hworks.locate_eq).1 hread
  obtain ⟨errors, summary', happly⟩ := a.change_apply d summary path backup before
  rw [happly] at hfailed ⊢
  cases hrun : Activation.run before a.settings.options with
  | error fault =>
    by_cases hmalformed : fault = .malformedName
    · subst hmalformed
      exact ⟨_, _, rfl, .refl hworks.isFolderAt_eq, fun _ => hcontent, fun _ hne => absurd rfl hne⟩
    · -- Nothing was written, so the file holds what it held.
      obtain ⟨o, disk, hback, hagree, hold, hrestored⟩ := rollBack_cases (a := a)
        (d := { d with errors := errors }) hworks
        (fun left hleft _ => (Except.ok.inj (hread.symm.trans hleft)).symm) summary backup (.activation fault)
      have hne : Except.error (ε := Fault) (α := Activation) fault ≠ .error .malformedName :=
        fun h => hmalformed (Except.error.inj h)
      refine ⟨o, { d with errors := errors, disk := disk }, ?_, hagree, ?_, fun hrestore _ =>
        ⟨(hrestored hrestore).1, fun hnone => ⟨fun fault' heq => ?_, fun done heq => ?_⟩⟩⟩
      · split
        · rename_i heq
          exact absurd heq hne
        · rename_i heq
          cases heq
          rw [hback]
        · rename_i heq
          cases heq
      · rintro (hrestore | heq)
        · exact hold hrestore
        · exact absurd heq hne
      · obtain rfl := Except.error.inj (hrun.symm.trans heq)
        exact (hrestored hrestore).2 hnone
      · cases hrun.symm.trans heq
  | ok done =>
    rw [hrun] at hfailed
    dsimp only at hfailed ⊢
    rcases hwrite : (a.write path done.text).run { d with errors := errors } with ⟨failure | _, d₁⟩
    · have hleft : Disk.AgreeOff p d.disk d₁.disk := hcontained.agreeOff (d := { d with errors := errors })
        hworks.locate_eq hworks.isFolderAt_eq hwrite
      obtain ⟨o, disk, hback, hagree, hold, hrestored⟩ := rollBack_cases (a := a) (hleft.replaceable hworks)
        (fun left => htold.eq_of_digest (d := { d with errors := errors }) hread hwrite) summary backup failure
      refine ⟨o, { d₁ with disk := disk }, ?_, hleft.trans hagree, ?_, fun hrestore _ =>
        ⟨fun content hc => ?_, fun hnone => ⟨fun fault heq => ?_, fun done' heq => ?_⟩⟩⟩
      · dsimp only
        rw [hback]
      · rintro (hrestore | heq)
        · exact hold hrestore
        · cases heq
      · exact (hrestored hrestore).1 content ((hleft.read_eq hbackup).2 hc)
      · cases hrun.symm.trans heq
      · obtain rfl := Except.ok.inj (hrun.symm.trans heq)
        obtain ⟨hsame, second, hsecond⟩ :=
          (hrestored hrestore).2 fun content hc => hnone content ((hleft.read_eq hbackup).1 hc)
        exact ⟨failure, second, { d with errors := errors }, d₁, rfl, hwrite, hsame, hsecond⟩
    · rw [hwrite] at hfailed
      exact absurd rfl hfailed

/-! ### Opening the test file -/

/-- Opening the test file makes a backup at most. -/
theorem openTarget_backedUp (a : Session (StateM Desk)) (d : Desk) (path backup : Bytes) (summary : Summary) :
    ∃ r d', (a.openTarget path backup summary).run d = (r, d') ∧ BackedUp backup d.disk d'.disk ∧
      ∀ before, r = .ok before → d'.disk.read path = .ok before := by
  rcases a.openTarget_cases d path backup summary with ⟨r, disk, errors, hrun, hbacked, hr⟩ | ⟨o, fault, hrun⟩
  · refine ⟨r, _, hrun, hbacked, ?_⟩
    rintro before rfl
    exact hr.1
  · exact ⟨.error o, _, hrun, Or.inl rfl, fun before heq => by cases heq⟩

/-- Where the backup is to be restored, none is made, and the test file is opened if it can be read and there
is something in place of the backup. -/
theorem openTarget_of_restoreBackup (hrestore : a.settings.restoreBackup = true) (d : Desk) (path backup : Bytes)
    (summary : Summary) :
    ∃ r d', (a.openTarget path backup summary).run d = (r, d') ∧ d'.disk = d.disk ∧
      ∀ before, r = .ok before ↔ d.disk.read path = .ok before ∧ ∃ status, d.disk.look backup = .ok status := by
  obtain ⟨errors, hrun⟩ := a.run_openTarget d path backup summary
  rw [hrun, run_ensureBackup, hrestore]
  cases hlook : d.disk.look path with
  | error fault =>
    refine ⟨_, d, rfl, rfl, fun before => ⟨fun heq => by (cases heq), ?_⟩⟩
    rintro ⟨hread, -⟩
    obtain ⟨status, hstatus⟩ := Disk.look_of_read hread
    rw [hlook] at hstatus
    cases hstatus
  | ok status =>
    cases hbackup : d.disk.look backup with
    | error fault =>
      -- No backup is made, so this is a failure whatever is wrong with the backup.
      have hnone : ∀ before : Bytes, d.disk.read path = .ok before ∧
          (∃ status, (Except.error fault : Except Files.Fault Status) = .ok status) → False := by
        rintro before ⟨-, status, heq⟩
        cases heq
      dsimp only
      cases fault.isMissing <;>
        exact ⟨_, d, rfl, rfl, fun before => ⟨fun heq => by (cases heq), fun h => (hnone before h).elim⟩⟩
    | ok status' =>
      dsimp only
      cases hread : d.disk.read path with
      | error fault =>
        refine ⟨_, { d with errors := errors }, rfl, rfl, fun before => ⟨fun heq => by (cases heq), ?_⟩⟩
        rintro ⟨heq, -⟩
        cases heq
      | ok content =>
        refine ⟨_, { d with errors := errors }, rfl, rfl, fun before => ⟨fun heq => ?_, fun h => ?_⟩⟩
        · cases heq
          exact ⟨rfl, status', rfl⟩
        · cases h.1
          rfl

end

/-! ### The whole activation -/

/-- Do the test file, its backup and the history at `home` keep out of each other's way? Only a backup that is
to be made, and a test file that is to hold what its backup holds, have to lie outside of the history. -/
structure Apart (home : Place) (a : Session (StateM Desk)) (d : Desk) : Prop where
  differ : ∀ p, d.disk.locate (a.target d).1 = .ok p →
    d.disk.locate (a.settings.backupPath (a.target d).1) ≠ .ok p
  backup : a.settings.restoreBackup = false → ∀ p,
    d.disk.locate (a.settings.backupPath (a.target d).1) = .ok p → d.disk.get? p = none → ¬ home <+: p
  target : a.settings.restoreBackup = true → ∀ p, d.disk.locate (a.target d).1 = .ok p → ¬ home <+: p

/-- Does an activation that restores a backup get as far as the search for the group, and does that not break
down? If it fails all the same, then the search fails, or writing the file. -/
def Searches (a : Session (StateM Desk)) (d : Desk) : Prop :=
  ∃ before status, d.disk.read (a.target d).1 = .ok before ∧
    d.disk.look (a.settings.backupPath (a.target d).1) = .ok status ∧
    Activation.run before a.settings.options ≠ .error .malformedName

/-- What is to hold after an activation that failed: the history in memory and on the disk, the backup and all
other files that were there are as they were, and the test file holds what it held, or what the backup
holds, if that can be read. -/
structure RolledBack (home : Place) (a : Session (StateM Desk)) (d : Desk) (s : Store) (o : Outcome) (d' : Desk) :
    Prop where
  store_eq : s = a.store
  history : ∀ r, home <+: r → d'.disk.content? r = d.disk.content? r
  backup : ∀ content, d.disk.read (a.settings.backupPath (a.target d).1) = .ok content →
    d'.disk.read (a.settings.backupPath (a.target d).1) = .ok content
  others : ∀ r, d.disk.get? r ≠ none → d.disk.locate (a.target d).1 ≠ .ok r → d'.disk.get? r = d.disk.get? r
  target : a.settings.restoreBackup = false ∨ ¬ Searches a d → ∀ content,
    d'.disk.read (a.target d).1 = .ok content ↔ d.disk.read (a.target d).1 = .ok content
  restored : a.settings.restoreBackup = true → Searches a d → ∀ content,
    d.disk.read (a.settings.backupPath (a.target d).1) = .ok content →
    d'.disk.read (a.target d).1 = .ok content
  unrestored : a.settings.restoreBackup = true → Searches a d →
    (∀ content, d.disk.read (a.settings.backupPath (a.target d).1) ≠ .ok content) →
    ∀ before, d.disk.read (a.target d).1 = .ok before → Unrestored a (a.target d).1 before d.disk o d'

section

variable {home : Place} {a : Session (StateM Desk)} {d d' : Desk} {o : Outcome} {before : Bytes} {p : Place}

/-- An activation that has opened the test file, and the backup, gets as far as the search. -/
theorem searches_iff {status : Status} (hread : d.disk.read (a.target d).1 = .ok before)
    (hlook : d.disk.look (a.settings.backupPath (a.target d).1) = .ok status) :
    Searches a d ↔ Activation.run before a.settings.options ≠ .error .malformedName := by
  refine ⟨?_, fun hrun => ⟨before, status, hread, hlook, hrun⟩⟩
  rintro ⟨before', status', hread', -, hrun⟩
  obtain rfl := Except.ok.inj (hread.symm.trans hread')
  exact hrun

/-- The making of a backup does not touch the history. -/
theorem Apart.content?_of_backedUp (h : Apart home a d)
    (hbacked : BackedUp (a.settings.backupPath (a.target d).1) d.disk d'.disk)
    (hsame : a.settings.restoreBackup = true → d'.disk = d.disk) {r : Place} (hr : home <+: r) :
    d'.disk.content? r = d.disk.content? r := by
  cases hrestore : a.settings.restoreBackup with
  | true => rw [hsame hrestore]
  | false =>
    rcases hbacked.agreeOff with heq | ⟨q, hq, hget, hagree⟩
    · rw [heq]
    · refine hagree.content?_eq fun hrq => ?_
      subst hrq
      exact h.backup hrestore r hq hget hr

/-- The making of a backup does not touch the test file. -/
theorem Apart.read_of_backedUp (h : Apart home a d)
    (hbacked : BackedUp (a.settings.backupPath (a.target d).1) d.disk d'.disk) (content : Bytes) :
    d'.disk.read (a.target d).1 = .ok content ↔ d.disk.read (a.target d).1 = .ok content := by
  rcases hbacked.agreeOff with heq | ⟨q, hq, -, hagree⟩
  · rw [heq]
  · exact hagree.read_eq fun htarget => h.differ q htarget hq

/-- Nothing but a backup was made. -/
theorem rolledBack_of_backedUp (h : Apart home a d)
    (hbacked : BackedUp (a.settings.backupPath (a.target d).1) d.disk d'.disk)
    (hsame : a.settings.restoreBackup = true → d'.disk = d.disk)
    (hearly : a.settings.restoreBackup = true → ¬ Searches a d) : RolledBack home a d a.store o d' where
  store_eq := rfl
  history _ hr := h.content?_of_backedUp hbacked hsame hr
  backup _ hread := hbacked.read_of_ok hread
  others _ hr _ := hbacked.get?_eq hr
  target _ content := h.read_of_backedUp hbacked content
  restored hrestore hsearches := absurd hsearches (hearly hrestore)
  unrestored hrestore hsearches := absurd hsearches (hearly hrestore)

/-- The test file was opened, and perhaps changed, and put back. -/
theorem rolledBack_of_agreeOff (h : Apart home a d) {d₁ : Desk}
    (hbacked : BackedUp (a.settings.backupPath (a.target d).1) d.disk d₁.disk)
    (hsame : a.settings.restoreBackup = true → d₁.disk = d.disk)
    (hread : d.disk.read (a.target d).1 = .ok before) (hp : d.disk.locate (a.target d).1 = .ok p)
    (hagree : Disk.AgreeOff p d₁.disk d'.disk)
    (hheld : a.settings.restoreBackup = false ∨ ¬ Searches a d → d'.disk.content? p = some before)
    (hrestored : a.settings.restoreBackup = true → Searches a d → ∀ content,
      d.disk.read (a.settings.backupPath (a.target d).1) = .ok content → d'.disk.content? p = some content)
    (hunrestored : a.settings.restoreBackup = true → Searches a d →
      (∀ content, d.disk.read (a.settings.backupPath (a.target d).1) ≠ .ok content) →
      Unrestored a (a.target d).1 before d.disk o d') :
    RolledBack home a d a.store o d' := by
  have hcontent : d.disk.content? p = some before := (Disk.read_iff_content? hp).1 hread
  have hp' : d'.disk.locate (a.target d).1 = .ok p := hagree.locate_iff.2 (hbacked.locate_iff.2 hp)
  refine ⟨rfl, fun r hr => ?_, fun content hc => ?_, fun r hget hr => ?_, fun hcase content => ?_,
    fun hrestore hsearches content hc => ?_, fun hrestore hsearches hnone before' hbefore' => ?_⟩
  · by_cases hrp : r = p
    · subst hrp
      have hrestore : a.settings.restoreBackup = false := by
        cases hrestore : a.settings.restoreBackup with
        | false => rfl
        | true => exact absurd hr (h.target hrestore r hp)
      rw [hheld (Or.inl hrestore), hcontent]
    · rw [hagree.content?_eq hrp, h.content?_of_backedUp hbacked hsame hr]
  · have hdiffer : d₁.disk.locate (a.settings.backupPath (a.target d).1) ≠ .ok p :=
      fun hq => h.differ p hp (hbacked.locate_iff.1 hq)
    exact (hagree.read_eq hdiffer).2 (hbacked.read_of_ok hc)
  · have hrp : r ≠ p := fun heq => hr (heq ▸ hp)
    rw [hagree.get?_eq r hrp, hbacked.get?_eq hget]
  · rw [Disk.read_iff_content? hp', Disk.read_iff_content? hp, hheld hcase, hcontent]
  · exact (Disk.read_iff_content? hp').2 (hrestored hrestore hsearches content hc)
  · obtain rfl := Except.ok.inj (hread.symm.trans hbefore')
    exact hunrestored hrestore hsearches hnone

/-- **A failed activation is rolled back.** Whatever the writer leaves of the test file when it fails, the
activation leaves the file as it was, or, where the backup is to be restored and the search or the writer
failed, as the backup holds it, if that can be read; and the history and all that was there stay. The file can be
written in one step, and digests tell what the writer leaves from what the file held. -/
theorem rolledBack_of_perform (hactivates : activates a.settings = true) (happart : Apart home a d)
    (hworks : ∀ before, d.disk.read (a.target d).1 = .ok before → ∃ p, d.disk.Replaceable (a.target d).1 p)
    (hcontained : a.write.Contained)
    (htold : ∀ before, d.disk.read (a.target d).1 = .ok before → a.write.ToldApart (a.target d).1 before)
    (hfailed : (a.perform d).1.2.failure ≠ none) :
    RolledBack home a d (a.perform d).1.1 (a.perform d).1.2 (a.perform d).2 := by
  rw [perform_of_activates a hactivates] at hfailed ⊢
  obtain ⟨summary, happly⟩ := a.activate_apply d
  obtain ⟨r, d₁, hopen, hbacked, hr⟩ := a.openTarget_backedUp d (a.target d).1
    (a.settings.backupPath (a.target d).1) summary
  rw [happly, hopen] at hfailed ⊢
  -- Where the backup is to be restored, opening the file tells how far the activation gets.
  have hopened : a.settings.restoreBackup = true → d₁.disk = d.disk ∧ ∀ before, r = .ok before ↔
      d.disk.read (a.target d).1 = .ok before ∧
        ∃ status, d.disk.look (a.settings.backupPath (a.target d).1) = .ok status := by
    intro hrestore
    obtain ⟨r', d₁', hopen', hsame, hiff⟩ := openTarget_of_restoreBackup hrestore d (a.target d).1
      (a.settings.backupPath (a.target d).1) summary
    rw [hopen] at hopen'
    cases hopen'
    exact ⟨hsame, hiff⟩
  cases r with
  | error o =>
    refine rolledBack_of_backedUp happart hbacked (fun h => (hopened h).1) fun hrestore hsearches => ?_
    obtain ⟨before, status, hread, hlook, -⟩ := hsearches
    have hok := ((hopened hrestore).2 before).2 ⟨hread, status, hlook⟩
    cases hok
  | ok before =>
    have hread := (happart.read_of_backedUp hbacked before).1 (hr before rfl)
    obtain ⟨p, hworks⟩ := hworks before hread
    obtain ⟨o, d', hchange, hagree, hold, hrestored⟩ := change_of_failed (hr before rfl)
      (hbacked.replaceable hworks) hcontained (htold before hread)
      (fun hq => happart.differ p hworks.locate_eq (hbacked.locate_iff.1 hq)) hfailed
    have hsearches : a.settings.restoreBackup = true →
        (Searches a d ↔ Activation.run before a.settings.options ≠ .error .malformedName) := by
      intro hrestore
      obtain ⟨-, status, hlook⟩ := ((hopened hrestore).2 before).1 rfl
      exact searches_iff hread hlook
    dsimp only
    rw [hchange]
    refine rolledBack_of_agreeOff happart hbacked (fun h => (hopened h).1) hread hworks.locate_eq hagree
      (fun hcase => hold ?_) (fun hrestore hfound content hc => ?_) fun hrestore hfound hnone => ?_
    · cases hrestore : a.settings.restoreBackup with
      | false => exact Or.inl rfl
      | true =>
        rw [hrestore, hsearches hrestore] at hcase
        exact Or.inr (Classical.not_not.1 (hcase.resolve_left (by simp)))
    · refine (hrestored hrestore ((hsearches hrestore).1 hfound)).1 content ?_
      rw [(hopened hrestore).1]
      exact hc
    · obtain ⟨-, hunrestored⟩ := hrestored hrestore ((hsearches hrestore).1 hfound)
      rw [(hopened hrestore).1] at hunrestored
      exact hunrestored hnone

end

/-- A way to write files that leaves something else behind and fails. -/
def spoil : Writer (StateM Desk) := fun path _ => ExceptT.mk fun d =>
  match d.disk.locate path with
  | .ok p => (.error (.other "disk full"), { d with disk := d.disk.set p (.file 0o600 "/*d") })
  | .error _ => (.error (.other "disk full"), d)

theorem run_spoil {d : Desk} {path : Bytes} {p : Place} (hp : d.disk.locate path = .ok p) (content : Bytes) :
    (spoil path content).run d =
      (.error (.other "disk full"), { d with disk := d.disk.set p (.file 0o600 "/*d") }) := by
  show (match d.disk.locate path with
    | .ok p => (Except.error (.other "disk full"), { d with disk := d.disk.set p (.file 0o600 "/*d") })
    | .error _ => (.error (.other "disk full"), d) : Except Failure Unit × Desk) = _
  rw [hp]

theorem contained_spoil : spoil.Contained where
  agreeOff hp hfile hrun := by
    rw [run_spoil hp] at hrun
    cases hrun
    exact .set hfile _ _

/-- A session with that writer. -/
def spoiled (restoreBackup : Bool) : Session (StateM Desk) :=
  ⟨{ sampleSettings with restoreBackup := restoreBackup }, freshStore, spoil⟩

section

variable (restoreBackup : Bool) (more : List (Place × Files.Entry))

theorem apart_spoiled : Apart (Store.homeOf "/") (spoiled restoreBackup) (freshDesk more) := by
  have htarget : (freshDesk more).disk.locate ((spoiled restoreBackup).target (freshDesk more)).1 = .ok ["t.js"] := rfl
  have hbackup : (freshDesk more).disk.locate ((spoiled restoreBackup).settings.backupPath
      ((spoiled restoreBackup).target (freshDesk more)).1) = .ok ["t.js.backup"] := rfl
  refine ⟨fun p hp => ?_, fun _ p hp _ => ?_, fun _ p hp => ?_⟩
  · obtain rfl := Except.ok.inj (htarget.symm.trans hp)
    rw [hbackup, ne_eq, Except.ok.injEq]
    decide
  · obtain rfl := Except.ok.inj (hbackup.symm.trans hp)
    decide
  · obtain rfl := Except.ok.inj (htarget.symm.trans hp)
    decide

theorem replaceable_fresh : (freshDesk more).disk.Replaceable "/t.js" ["t.js"] := ⟨rfl, rfl, _, rfl⟩

theorem toldApart_spoil (before : Bytes) (hread : (freshDesk more).disk.read "/t.js" = .ok before) :
    spoil.ToldApart "/t.js" before := by
  constructor
  intro content left failure d d' hread' hrun hleft hdigest
  obtain ⟨p, mode, hp, hget⟩ := Disk.read_eq_ok_iff.1 hread'
  have hfile := Disk.isFolderAt_of_file hget
  rw [run_spoil hp] at hrun
  cases hrun
  have hput : PutBack p "/*d" d.disk _ := .set hfile 0o600 "/*d"
  obtain rfl : Bytes.ofString "/*d" = left :=
    Option.some.inj (hput.content?_eq.symm.trans ((Disk.read_iff_content? (hput.agreeOff.locate_iff.2 hp)).1 hleft))
  have hheld : (freshDesk more).disk.read "/t.js" = .ok "/*d('a', () => \x7b\x7d);*/d('z'" := rfl
  obtain rfl := Except.ok.inj (hheld.symm.trans hread)
  revert hdigest
  decide +kernel

end

/-- Three activations whose writer fails: the test file is put back as it was; as its backup holds it; and, where a
folder stands in place of the backup, not at all. -/
theorem rolledBack_of_perform_spoiled :
    (let a := spoiled false
      let d := freshDesk []
      (a.perform d).1.2.failure = some (.other "disk full") ∧ d.disk.content? ["t.js.backup"] = none ∧
        (a.perform d).2.disk.content? ["t.js.backup"] = d.disk.content? ["t.js"] ∧
        RolledBack (Store.homeOf "/") a d (a.perform d).1.1 (a.perform d).1.2 (a.perform d).2) ∧
    (let a := spoiled true
      let d := freshDesk [(["t.js.backup"], .file 0o644 "kept")]
      (a.perform d).1.2.failure = some (.other "disk full") ∧
        (a.perform d).2.disk.content? ["t.js"] = some "kept" ∧
        RolledBack (Store.homeOf "/") a d (a.perform d).1.1 (a.perform d).1.2 (a.perform d).2) ∧
    (let a := spoiled true
      let d := freshDesk [(["t.js.backup"], .folder 0o755)]
      (a.perform d).1.2.failure ≠ none ∧ (a.perform d).2.disk.content? ["t.js"] = some "/*d" ∧
        RolledBack (Store.homeOf "/") a d (a.perform d).1.1 (a.perform d).1.2 (a.perform d).2) := by
  have hrolled (restoreBackup : Bool) (more : List (Place × Files.Entry)) (a : Session (StateM Desk)) (d : Desk)
      (ha : a = spoiled restoreBackup) (hd : d = freshDesk more) (hfailed : (a.perform d).1.2.failure ≠ none) :
      RolledBack (Store.homeOf "/") a d (a.perform d).1.1 (a.perform d).1.2 (a.perform d).2 := by
    subst ha hd
    exact rolledBack_of_perform rfl (apart_spoiled restoreBackup more) (fun _ _ => ⟨_, replaceable_fresh more⟩)
      contained_spoil (toldApart_spoil more) hfailed
  refine ⟨?_, ?_, ?_⟩
  · intro a d
    have hfailure : (a.perform d).1.2.failure = some (.other "disk full") := by decide +kernel
    have hfailed : (a.perform d).1.2.failure ≠ none := by rw [hfailure]; simp
    exact ⟨hfailure, rfl, by decide +kernel, hrolled false _ a d rfl rfl hfailed⟩
  · intro a d
    have hfailure : (a.perform d).1.2.failure = some (.other "disk full") := by decide +kernel
    have hfailed : (a.perform d).1.2.failure ≠ none := by rw [hfailure]; simp
    exact ⟨hfailure, by decide +kernel, hrolled true _ a d rfl rfl hfailed⟩
  · intro a d
    have hfailed : (a.perform d).1.2.failure ≠ none := by decide +kernel
    exact ⟨hfailed, by decide +kernel, hrolled true _ a d rfl rfl hfailed⟩

/-- Three activations out of bounds. A backup that is made in the history, here in place of the file of the
timeline, changes the history of an activation that fails; and so does a backup that is restored there. And where
a folder stands in place of the backup that is to be restored, the test file is left as the writer left it. -/
theorem rolledBack_fails_out_of_bounds :
    (let settings := { sampleSettings with backup := "/.focus/state.json", name := "b" }
      let d := freshDesk []
      let r := (command settings freshStore).perform d
      (Store.load "/" : ExceptT Failure (StateM Desk) Store).run d = (.ok freshStore, d) ∧
        r.1.2.failure ≠ none ∧ d.disk.locate (settings.backupPath "/t.js") = .ok (Store.fileAt (Store.homeOf "/")) ∧
        d.disk.content? (Store.fileAt (Store.homeOf "/")) = none ∧
        r.2.disk.content? (Store.fileAt (Store.homeOf "/")) = d.disk.content? ["t.js"]) ∧
    (let settings := { sampleSettings with file := "/.focus/state.json", backup := "/t.js", restoreBackup := true }
      let d := freshDesk [(Store.fileAt (Store.homeOf "/"), .file 0o644 [])]
      let r := (command settings freshStore).perform d
      (Store.load "/" : ExceptT Failure (StateM Desk) Store).run d = (.ok freshStore, d) ∧
        r.1.2.failure ≠ none ∧ d.disk.locate (settings.backupPath settings.file) = .ok ["t.js"] ∧
        d.disk.content? (Store.fileAt (Store.homeOf "/")) = some [] ∧
        r.2.disk.content? (Store.fileAt (Store.homeOf "/")) = d.disk.content? ["t.js"]) ∧
    (let d := freshDesk [(["t.js.backup"], .folder 0o755)]
      let r := (spoiled true).perform d
      (Store.load "/" : ExceptT Failure (StateM Desk) Store).run d = (.ok freshStore, d) ∧
        r.1.2.failure ≠ none ∧ d.disk.locate ((spoiled true).settings.backupPath "/t.js") = .ok ["t.js.backup"] ∧
        d.disk.isFolderAt ["t.js.backup"] = true ∧ r.2.disk.content? ["t.js"] = some "/*d" ∧
        r.2.disk.content? ["t.js"] ≠ d.disk.content? ["t.js"] ∧
        r.2.disk.content? ["t.js"] ≠ d.disk.content? ["t.js.backup"]) := by
  refine ⟨⟨rfl, ?_, rfl, rfl, ?_⟩, ⟨rfl, ?_, rfl, rfl, ?_⟩, ⟨rfl, ?_, rfl, rfl, ?_, ?_, ?_⟩⟩
  all_goals decide +kernel

end Spotlight.Session
