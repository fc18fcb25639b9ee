import Spotlight.Json.Reader

/-!
# Test results

The results file of a test run, as far as a report needs it: the suites, their assertions and the
messages of the failed ones.

* `Results`, `Results.Suite`, `Results.Assertion` — the contents of a results file;
* `Results.parse` — reads one from JSON;
* `Results.countFailed` — the number of failed assertions.
-/

namespace Spotlight

namespace Results

/-- A place in a test file. -/
structure Location where
  /-- The line. -/
  line : Int := 0
  /-- The column. -/
  column : Int := 0
deriving DecidableEq, Repr

/-- The result of one test. -/
structure Assertion where
  /-- The title of the test. -/
  title : Bytes := []
  /-- How the test ended. -/
  status : Bytes := []
  /-- The messages of a failed test. -/
  messages : List Bytes := []
  /-- Where the test stands, if that is known. -/
  location : Option Location := none
deriving DecidableEq, Repr

/-- The results of one test file. -/
structure Suite where
  /-- The path of the file. -/
  name : Bytes := []
  /-- How the file as a whole ended. -/
  status : Bytes := []
  /-- The results of its tests. -/
  assertions : List Assertion := []
deriving DecidableEq, Repr

/-- The status of what failed. -/
def failedStatus : Bytes := "failed"

/-- Did the test fail? -/
def Assertion.failed (a : Assertion) : Bool := a.status == failedStatus

/-- The title, or a placeholder where there is none. -/
def Assertion.displayTitle (a : Assertion) : Bytes :=
  if a.title.isEmpty then "Unknown Test" else a.title

/-- The failed tests of a suite, in order. -/
def Suite.failures (s : Suite) : List Assertion := s.assertions.filter Assertion.failed

/-- Did the suite or one of its tests fail? -/
def Suite.failed (s : Suite) : Bool := s.status == failedStatus || !s.failures.isEmpty

/-- The path of a suite, or a placeholder where there is none. -/
def Suite.displayName (s : Suite) : Bytes :=
  if s.name.isEmpty then "Unknown Suite Path" else s.name

end Results

/-- The contents of a results file. -/
structure Results where
  /-- The number of failed tests as the test runner wrote it, empty where it did not. -/
  reported : Bytes := []
  /-- The results of the test files. -/
  suites : List Results.Suite := []
deriving DecidableEq, Repr

namespace Results

open Json

/-- Reads a place from JSON. -/
def readLocation : Reader Location := Reader.record
  [⟨"line", fun l v => (Reader.int l.line v).map fun n => { l with line := n }⟩,
   ⟨"column", fun l v => (Reader.int l.column v).map fun n => { l with column := n }⟩]

/-- Reads the result of a test from JSON. -/
def readAssertion : Reader Assertion := Reader.record
  [⟨"title", fun a v => (Reader.string a.title v).map fun t => { a with title := t }⟩,
   ⟨"status", fun a v => (Reader.string a.status v).map fun t => { a with status := t }⟩,
   ⟨"failureMessages", fun a v =>
      (Reader.list Reader.string [] a.messages v).map fun ms => { a with messages := ms }⟩,
   ⟨"location", fun a v =>
      (Reader.optional readLocation {} a.location v).map fun l => { a with location := l }⟩]

/-- Reads the results of a test file from JSON. -/
def readSuite : Reader Suite := Reader.record
  [⟨"name", fun s v => (Reader.string s.name v).map fun t => { s with name := t }⟩,
   ⟨"status", fun s v => (Reader.string s.status v).map fun t => { s with status := t }⟩,
   ⟨"assertionResults", fun s v =>
      (Reader.list readAssertion {} s.assertions v).map fun as => { s with assertions := as }⟩]

/-- Reads results from JSON. -/
def read : Reader Results := Reader.record
  [⟨"numFailedTests", fun r v => (Reader.number r.reported v).map fun n => { r with reported := n }⟩,
   ⟨"testResults", fun r v =>
      (Reader.list readSuite {} r.suites v).map fun ss => { r with suites := ss }⟩]

/-- The results a JSON text stands for. -/
def parse (s : Bytes) : Option Results := (Json.parse s).bind (read {})

/-- The number of failed tests according to the test runner. -/
def reportedFailures (r : Results) : Bytes := if r.reported.isEmpty then "N/A" else r.reported

/-- The number of failed assertions. -/
def countFailed (r : Results) : Nat := r.suites.foldl (fun n s => n + s.failures.length) 0

end Results

end Spotlight
