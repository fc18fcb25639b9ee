import Spotlight.Report.Format
import Spotlight.Session.Basic

/-!
# Reporting failed tests

* `Session.loadResults` — the results file the settings name;
* `Session.review` — the report on it, printed or saved.
-/

namespace Spotlight.Session

open Files

variable {m : Type → Type} [Monad m] [MonadDesk m]

/-- The results a text stands for; where it came from is told if it does not. -/
def parseResults (text source : Bytes) : Except Failure Results :=
  match Results.parse text with
  | some r => .ok r
  | none => .error (.resultsMalformed source)

/-- The results in a file or on standard input. -/
def loadResults (path : Bytes) : ExceptT Failure m Results := do
  if path = Source.stdin then
    let text ← Source.content path
    ExceptT.mk (pure (parseResults text "stdin"))
  else
    match ← (MonadFiles.read path : m _) with
    | .error fault => throw (if fault.isMissing then .resultsMissing path else .files fault)
    | .ok text => ExceptT.mk (pure (parseResults text path))

/-- One line about results that could not be loaded. -/
def resultsDiagnostic (path : Bytes) : Failure → Bytes
  | .resultsMissing _ => "Error: Test results file not found at " ++ path
  | .resultsMalformed _ => "Error: Could not decode JSON from " ++ path
  | failure => "Error: " ++ failure.message

/-- Tells that there are no results: in the file for the report, or else in the summary. -/
def noResults (s : Settings) (failure : Failure) : m Outcome := do
  let line := resultsDiagnostic s.report failure
  if s.reportOut.isEmpty then return ⟨Summary.add {} line, some failure⟩
  else
    match ← MonadFiles.overwrite s.reportOut (line ++ "\n") with
    | .ok _ => return ⟨{}, some failure⟩
    | .error fault => return ⟨{}, some (.both failure (.files fault))⟩

/-- Copies a report to the clipboard, and tells whether that worked. -/
def clipReport (text : Bytes) (failed : Nat) : m Unit := do
  match ← MonadDesk.clip text with
  | .ok _ =>
    MonadDesk.say .success
      ("Copied " ++ Bytes.ofNat failed ++ " failed test(s) to the clipboard.")
  | .error failure => MonadDesk.say .warning failure.message

/-- Prints a report, or saves it to a file. -/
def deliver (s : Settings) (text : Bytes) : m Outcome := do
  if s.reportOut.isEmpty then return ⟨{ output := text }, none⟩
  else
    match ← MonadFiles.overwrite s.reportOut text with
    | .ok _ =>
      return ⟨Summary.add {} ("Failed test details saved to " ++ s.reportOut), none⟩
    | .error fault =>
      return ⟨{}, some (.during ("failed to write " ++ s.reportOut) (.files fault))⟩

/-- Reports on the failed tests of a results file. -/
def review (a : Session m) : m Outcome := do
  let s := a.settings
  match ← (loadResults s.report).run with
  | .error failure => noResults s failure
  | .ok results =>
    match Report.Format.ofName? s.format with
    | none => return ⟨{}, some (.other (Report.Format.unknown s.format))⟩
    | some format =>
      let layout : Report.Layout := if s.reportOut.isEmpty then .print else .save
      let (text, failed) := Report.render results format layout
      if s.copy then clipReport text failed
      deliver s text

end Spotlight.Session
