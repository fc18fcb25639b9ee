import Spotlight.Patch.Unified
import Spotlight.Session.Basic

/-!
# Activating a group in a session

* `Session.activate` — activates the group, writes the file and records the change in the history. When
  something goes wrong the file is put back;
* `Session.dryRun` — shows the change as a patch;
* `Session.listGroups` — lists the groups of the disabled region.
-/

namespace Spotlight.Session

open Files

variable {m : Type → Type} [Monad m] [MonadDesk m]

/-- Makes sure that the test file and its backup are there, and gives the content of the file. A
failure is told as the outcome of the command. -/
def openTarget (a : Session m) (path backup : Bytes) (summary : Summary) : ExceptT Outcome m Bytes := do
  match ← (MonadFiles.look path : m _) with
  | .error fault =>
    throw (.failed summary (.during ("test file " ++ path) (.files fault)))
  | .ok _ =>
    match ← (ExceptT.run (ensureBackup path backup (!a.settings.restoreBackup)) : m _) with
    | .error failure => throw (.failed summary failure)
    | .ok created =>
      if created then
        let shown ← (relativize backup : m Bytes)
        (MonadDesk.say .info ("Created backup " ++ shown) : m Unit)
      match ← (ExceptT.run (readTarget path) : m _) with
      | .error failure => throw ⟨summary, some failure⟩
      | .ok content => return content

/-- Puts the test file back: as the backup holds it if the settings say so, else as it was. -/
def putBack (a : Session m) (path backup before : Bytes) : ExceptT Failure m Unit :=
  if a.settings.restoreBackup then restore backup path else restoreContent path before

/-- Puts the test file back after a failure, and tells what happened. -/
def rollBack (a : Session m) (summary : Summary) (path backup before : Bytes) (failure : Failure) :
    m Outcome := do
  let summary := summary.add (a.diagnostic failure)
  let summary := { summary with failed := summary.failed ++ [summary.path] }
  match ← (a.putBack path backup before).run with
  | .ok _ => return ⟨summary.add "Restored backup.", some failure⟩
  | .error second =>
    return ⟨summary.add ("Could not restore backup: " ++ second.message), some (.both failure second)⟩

/-- The entry of an activation in the history. -/
def entryOf (o : Options) (path backup before after : Bytes) : History.Entry :=
  { path, backup, name := o.name, marker := o.marker, anchor := o.anchor, keyword := o.keyword,
    scan := o.scan, hashBefore := Digest.sha256 before, hashAfter := Digest.sha256 after }

/-- Records an activation in the history, and gives the history as it is then. If that fails, the
activation stands all the same. -/
def remember (a : Session m) (entry : History.Entry) (before : Bytes) : m History.Store := do
  let entry := entry.stamped (← MonadDesk.freshName) (← MonadDesk.now)
  match ← a.store.record entry before with
  | (store, .ok _) => return store
  | (store, .error failure) =>
    MonadDesk.say .warning
      ("Could not record history, undo will not be available: " ++ failure.message)
    return store

/-- Activates the group in a test file with a known content, and records that. -/
def change (a : Session m) (summary : Summary) (path backup before : Bytes) :
    m (History.Store × Outcome) := do
  let o := a.settings.options
  MonadDesk.say .header ("--- Activating '" ++ o.name ++ "' in " ++ summary.path ++ " ---")
  match Activation.run before o with
  | .error .malformedName => return (a.store, .crash)
  | .error fault => return (a.store, ← a.rollBack summary path backup before (.activation fault))
  | .ok done =>
    match ← (a.write path done.text).run with
    | .error failure => return (a.store, ← a.rollBack summary path backup before failure)
    | .ok _ =>
      let store ← a.remember (entryOf o path backup before done.text) before
      let summary := summary.add
        ("Successfully uncommented '" ++ o.name ++ "' test suite and re-commented others.")
      return (store, ⟨{ summary with
        activated := o.name, disabled := done.disabled, modified := [summary.path] }, none⟩)

/-- Activates the group of the settings, and gives the history as it is then. -/
def activate (a : Session m) : m (History.Store × Outcome) := do
  let path ← a.target
  let backup := a.settings.backupPath path
  let summary : Summary := { path := ← relativize path }
  match ← (a.openTarget path backup summary).run with
  | .error outcome => return (a.store, outcome)
  | .ok before => a.change summary path backup before

/-- Does something with the content of the test file, without changing anything. -/
def inspect (a : Session m) (act : Summary → Bytes → Except Fault Summary) : m Outcome := do
  let path ← a.target
  let summary : Summary := { path := ← relativize path }
  match ← (readTarget path).run with
  | .error failure => return ⟨summary, some failure⟩
  | .ok content =>
    match act summary content with
    | .ok summary => return ⟨summary, none⟩
    | .error .malformedName => return .crash
    | .error fault =>
      return ⟨summary.add (a.diagnostic (.activation fault)), some (.activation fault)⟩

/-- Shows what an activation would change. -/
def dryRun (a : Session m) : m Outcome :=
  a.inspect fun summary content => do
    let done ← Activation.run content a.settings.options
    return { summary with
      output := Patch.unified summary.path content done.text, disabled := done.disabled }

/-- Lists the groups of the disabled region. -/
def listGroups (a : Session m) : m Outcome :=
  a.inspect fun summary content => do
    let names ← Activation.list content a.settings.options
    return { summary with messages := summary.messages ++ names }

end Spotlight.Session
