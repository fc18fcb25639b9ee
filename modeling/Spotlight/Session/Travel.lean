import Spotlight.Session.Basic

/-!
# Undoing and repeating activations

The history moves first, and moves back when the file does not follow. A file is changed only if it
still holds what the history says it holds.

* `Session.undo` — puts back the file of the last activation;
* `Session.redo` — repeats the last undone activation.
-/

namespace Spotlight.Session

open Files

variable {m : Type → Type} [Monad m] [MonadDesk m]

/-- The texts that drove a recorded activation. -/
def optionsOf (e : History.Entry) : Options :=
  { marker := e.marker, anchor := e.anchor, keyword := e.keyword, name := e.name, scan := e.scan }

/-- Puts back the file of an activation. -/
def undoEntry (a : Session m) (shown : Bytes) (e : History.Entry) : ExceptT Failure m Unit := do
  let current ← digest e.path
  if current ≠ e.hashAfter then
    throw (.other (shown ++ " changed since '" ++ e.name ++ "' was activated, refusing to undo"))
  let before ← a.store.snapshot e
  if Digest.sha256 before ≠ e.hashBefore then
    throw (.other ("snapshot for " ++ shown ++ " does not match the file before activation"))
  a.write e.path before

/-- Repeats an activation, and gives the groups that are still disabled. There is no answer when the search
for the group broke down. -/
def redoEntry (a : Session m) (shown : Bytes) (e : History.Entry) :
    ExceptT Failure m (Option (List Bytes)) := do
  let content ← readTarget e.path
  if Digest.sha256 content ≠ e.hashBefore then
    throw (.other (shown ++ " changed since '" ++ e.name ++ "' was undone, refusing to redo"))
  match Activation.run content (optionsOf e) with
  | .error .malformedName => return none
  | .error fault => throw (.activation fault)
  | .ok done =>
    if Digest.sha256 done.text ≠ e.hashAfter then
      throw (.other ("redoing '" ++ e.name ++ "' produced different content than recorded"))
    a.write e.path done.text
    return some done.disabled

/-- Undoes the last activation, and gives the history as it is then. -/
def undo (a : Session m) : m (History.Store × Outcome) := do
  let (store, step) ← a.store.undo
  match step with
  | .error failure => return (store, ⟨{}, some failure⟩)
  | .ok none => return (store, ⟨{ messages := ["No operation to undo."] }, none⟩)
  | .ok (some e) =>
    let shown ← relativize e.path
    let summary : Summary := { path := shown }
    match ← (undoEntry { a with store } shown e).run with
    | .ok _ =>
      return (store, ⟨{ summary.add ("Undid activation of '" ++ e.name ++ "'.") with
        modified := [shown] }, none⟩)
    | .error failure =>
      let (store, back) ← store.advance
      return (store, .failed summary (failure.andThen back))

/-- Repeats the last undone activation, and gives the history as it is then. -/
def redo (a : Session m) : m (History.Store × Outcome) := do
  let (store, step) ← a.store.redo
  match step with
  | .error failure => return (store, ⟨{}, some failure⟩)
  | .ok none => return (store, ⟨{ messages := ["No operation to redo."] }, none⟩)
  | .ok (some e) =>
    let shown ← relativize e.path
    let summary : Summary := { path := shown }
    match ← (redoEntry { a with store } shown e).run with
    | .ok none => return (store, .crash)
    | .ok (some disabled) =>
      return (store, ⟨{ summary.add ("Redid activation of '" ++ e.name ++ "'.") with
        activated := e.name, disabled, modified := [shown] }, none⟩)
    | .error failure =>
      let (store, back) ← store.rewind
      return (store, .failed summary (failure.andThen back))

end Spotlight.Session
