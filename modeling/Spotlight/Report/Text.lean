import Spotlight.Report.Results
import Spotlight.Terminal.Strip

/-!
# Reports in plain text

* `Report.Layout` — a report for the console or for a file;
* `Report.writeSuites` — the failed tests of some suites, counted while they are written;
* `Report.plain` — the failed tests of a results file as plain text.

In a file the lines of a message after its first are indented, so that they cannot be taken for lines
of the report.
-/

namespace Spotlight.Report

open Bytes Results

/-- The layouts of a plain report. -/
inductive Layout
  /-- For the console: a line with the location of each failure, and every failed suite. -/
  | print
  /-- For a file: messages of several lines indented, and a note for failures without a
  message. -/
  | save
deriving DecidableEq, Repr

/-! ### Suites and their tests -/

/-- The failed tests of a suite one after the other, and how many were counted with those in front. -/
def writeTests (test : Assertion → Bytes) (failed : Nat) : List Assertion → Bytes × Nat
  | [] => ([], failed)
  | a :: as =>
    let (text, failed) := writeTests test (failed + 1) as
    (test a ++ text, failed)

/-- The suites that are shown, each with its failed tests under a heading, and how many tests were counted
with those in front. -/
def writeSuites (shows : Suite → Bool) (heading : Suite → Bytes) (test : Assertion → Bytes) (failed : Nat) :
    List Suite → Bytes × Nat
  | [] => ([], failed)
  | s :: ss =>
    if shows s then
      let (tests, failed) := writeTests test failed s.failures
      let (more, failed) := writeSuites shows heading test failed ss
      (heading s ++ tests ++ more, failed)
    else writeSuites shows heading test failed ss

/-! ### Plain text -/

/-- What a report says when there are no results at all. -/
def noResults : Bytes := "No testResults found in JSON."

/-- A failure message without terminal escapes. -/
def clean (message : Bytes) : Bytes := Terminal.strip message

/-- A place in a test file. -/
def location : Option Location → Bytes
  | none => "None"
  | some l => "line " ++ ofInt l.line ++ ", column " ++ ofInt l.column

/-- The messages of a failure, numbered from `i` on. -/
def messageLines (layout : Layout) : (i : Nat) → List Bytes → Bytes
  | _, [] => []
  | i, m :: ms =>
    let body := match layout with
      | .print => clean m
      | .save => replaceByte lf "\n        " (clean m)
    "    Error Message " ++ ofNat i ++ ": " ++ body ++ "\n" ++ messageLines layout (i + 1) ms

/-- One failed test. -/
def assertion (layout : Layout) (a : Assertion) : Bytes :=
  "  Test: " ++ a.displayTitle ++ "\n    Status: " ++ a.status ++ "\n" ++
  (if layout = .save && a.messages.isEmpty then
    "    Error Message: No specific error message provided in JSON.\n" else "") ++
  messageLines layout 1 a.messages ++
  (if layout = .print then "    Location: " ++ location a.location ++ "\n" else "") ++
  "    ---\n"

/-- Is the suite part of the report? -/
def shows (layout : Layout) (s : Suite) : Bool :=
  match layout with
  | .print => s.failed
  | .save => !s.failures.isEmpty

/-- The line over the failed tests of a suite. -/
def heading (s : Suite) : Bytes := "\n--- Test Suite FAILED: " ++ s.displayName ++ " ---\n"

/-- The failed tests of a results file as plain text, and how many there are. -/
def plain (layout : Layout) (r : Results) : Bytes × Nat :=
  if r.suites.isEmpty then (noResults ++ "\n", 0)
  else
    let (text, failed) := writeSuites (shows layout) heading (assertion layout) 0 r.suites
    (text ++ "\nTotal failed tests reported by Vitest: " ++ r.reportedFailures ++ "\n" ++
      "Total failed assertions parsed from details: " ++ ofNat failed ++ "\n", failed)

end Spotlight.Report
