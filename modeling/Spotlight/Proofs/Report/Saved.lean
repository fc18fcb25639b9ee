import Spotlight.Proofs.Report.Suites
import Spotlight.Proofs.Text.Decimal
import Spotlight.Proofs.Text.Pieces

/-!
# Reading a saved report

A report for a file is read back line by line. All lines of a message but its first start with eight spaces, and no
other line of the report does: what a message says is never taken for the report's own words.

* `Report.Line`, `Report.readLine` — what a line tells;
* `Report.gather`, `Report.decode` — reads the failed tests from a report;
* `Report.gather_message`, `Report.gather_assertion`, `Report.gather_suites` — what is read from each part;
* `Report.decode_plain` — the failed tests of some results are read back from their report, and all reports count them.
-/

namespace Spotlight

open Bytes Results

namespace Report

/-! ### What a report is about -/

/-- A failed test, as a report shows it. -/
structure FailedTest where
  /-- The title, or a placeholder. -/
  title : Bytes
  /-- The messages, without terminal escapes. -/
  messages : List Bytes
deriving DecidableEq, Repr

/-- A suite with failed tests, as a report shows it. -/
structure FailedSuite where
  /-- The path of its file, or a placeholder. -/
  name : Bytes
  /-- The failed tests, in order. -/
  tests : List FailedTest
deriving DecidableEq, Repr

/-- The test as a report shows it. -/
def failedTest (a : Assertion) : FailedTest := ⟨a.displayTitle, a.messages.map clean⟩

/-- The suite as a report shows it. -/
def failedSuite (s : Suite) : FailedSuite :=
  ⟨s.displayName, (s.assertions.filter Assertion.failed).map failedTest⟩

/-- The suites with a failed test, in order, each with its failed tests. -/
def failedSuites (r : Results) : List FailedSuite :=
  (r.suites.filter fun s => s.assertions.any Assertion.failed).map failedSuite

/-! ### The reader -/

/-- What a line of a report tells. -/
inductive Line
  /-- A further line of a message. -/
  | more (text : Bytes)
  /-- The first line of a message. -/
  | message (text : Bytes)
  /-- The title of a test. -/
  | test (title : Bytes)
  /-- The name of a suite. -/
  | suite (name : Bytes)
  /-- There are no more tests from here on. -/
  | totals
  /-- Nothing about the tests. -/
  | other
deriving DecidableEq, Repr

/-- What a line tells, by the words at its head. -/
def readLine (line : Bytes) : Line :=
  match strip? "        " line, strip? "    Error Message " line, strip? "  Test: " line,
    strip? "--- Test Suite FAILED: " line, strip? "Total failed tests" line with
  | some text, _, _, _, _ => .more text
  | none, some numbered, _, _, _ => .message ((numbered.dropWhile isDigit).drop 2)
  | none, none, some title, _, _ => .test title
  | none, none, none, some name, _ => .suite (name.take (name.length - 4))
  | none, none, none, none, some _ => .totals
  | none, none, none, none, none => .other

/-- What has been read of a report from its last line up to some line. -/
structure Gathered where
  /-- The lines of a message whose first line stands further up. -/
  more : List Bytes := []
  /-- The messages of a test further up. -/
  messages : List Bytes := []
  /-- The tests of a suite further up. -/
  tests : List FailedTest := []
  /-- The suites. -/
  suites : List FailedSuite := []

/-- Reads one more line, above those that have been read. -/
def Gathered.add (line : Bytes) (g : Gathered) : Gathered :=
  match readLine line with
  | .more text => { g with more := text :: g.more }
  | .message text => { g with more := [], messages := joinWith [lf] (text :: g.more) :: g.messages }
  | .test title => { g with messages := [], tests := ⟨title, g.messages⟩ :: g.tests }
  | .suite name => { g with tests := [], suites := ⟨name, g.tests⟩ :: g.suites }
  | .totals => {}
  | .other => g

/-- Reads all lines of a report. -/
def gather (report : Bytes) : Gathered := (splitOn lf report).foldr Gathered.add {}

/-- The failed tests that a report tells about. -/
def decode (report : Bytes) : List FailedSuite := (gather report).suites

/-! ### The lines of a report -/

theorem readLine_more (text : Bytes) : readLine ("        " ++ text) = .more text := rfl

theorem readLine_message (i : Nat) (text : Bytes) :
    readLine ("    Error Message " ++ (ofNat i ++ (": " ++ text))) = .message text := by
  have hdigits : ∀ b ∈ ofNat i, isDigit b = true := List.all_eq_true.1 (all_isDigit_ofNat i)
  show Line.message (((ofNat i ++ (": " ++ text)).dropWhile isDigit).drop 2) = .message text
  rw [List.dropWhile_append_of_pos hdigits]
  rfl

theorem readLine_suite (name : Bytes) :
    readLine ("--- Test Suite FAILED: " ++ (name ++ " ---")) = .suite name := by
  show Line.suite ((name ++ " ---").take ((name ++ " ---").length - 4)) = .suite name
  rw [List.length_append]
  exact congrArg Line.suite List.take_left

theorem gather_line {line : Bytes} (h : lf ∉ line) (s : Bytes) :
    gather (line ++ ("\n" ++ s)) = (gather s).add line := by
  show gather (line ++ lf :: s) = _
  rw [gather, splitOn, List.splitOn_append_cons_self, List.splitOn_eq_singleton h]
  rfl

/-- Nothing above the totals depends on what follows them. -/
theorem gather_totals (told : Bytes) : gather ("Total failed tests" ++ told) = {} := by
  obtain ⟨line, more, htold⟩ := List.exists_cons_of_ne_nil (List.splitOn_ne_nil lf told)
  rw [gather, splitOn_append_left (by decide) htold]
  rfl

/-! ### The parts of a report -/

section Parts

variable {s : Bytes} {messages : List Bytes} {tests : List FailedTest} {suites : List FailedSuite}

/-- Further lines of a message are kept for its first line. -/
theorem foldr_more (lines : List Bytes) (g : Gathered) :
    (lines.map (("        " : Bytes) ++ ·)).foldr Gathered.add g = { g with more := lines ++ g.more } := by
  induction lines with
  | nil => rfl
  | cons line lines ih =>
    rw [List.map_cons, List.foldr_cons, ih, Gathered.add, readLine_more]
    rfl

/-- A message is read back, whatever its lines look like. -/
theorem gather_message (i : Nat) (m : Bytes) (h : gather s = ⟨[], messages, tests, suites⟩) :
    gather ("    Error Message " ++ (ofNat i ++ (": " ++ (replaceByte lf "\n        " m ++ ("\n" ++ s))))) =
      ⟨[], m :: messages, tests, suites⟩ := by
  obtain ⟨first, more, hlines⟩ := List.exists_cons_of_ne_nil (List.splitOn_ne_nil lf m)
  have hhead : lf ∉ ("    Error Message " : Bytes) ++ (ofNat i ++ ": ") := by
    have hdigits : lf ∉ ofNat i := not_mem_ofNat rfl i
    simp only [List.mem_append, not_or]
    exact ⟨by decide, hdigits, by decide⟩
  have htext : ("    Error Message " : Bytes) ++ (ofNat i ++ (": " ++ (replaceByte lf "\n        " m ++ ("\n" ++ s)))) =
      ("    Error Message " ++ (ofNat i ++ ": ")) ++ replaceByte lf "\n        " m ++ lf :: s := by
    simp only [List.append_assoc]
    rfl
  have hreplaced : splitOn lf (replaceByte lf "\n        " m) = first :: more.map (("        " : Bytes) ++ ·) :=
    splitOn_replaceByte (by decide) hlines
  have htold := splitOn_append_left hhead hreplaced
  have hback : joinWith [lf] (first :: more) = m := by
    rw [← hlines]
    exact List.intercalate_splitOn lf
  rw [gather] at h
  rw [splitOn] at h htold
  rw [htext, gather, splitOn, List.splitOn_append_cons_self, htold, List.foldr_append, h, List.foldr_cons, foldr_more,
    List.append_nil, List.append_assoc, List.append_assoc, Gathered.add, readLine_message, ← hback]

theorem gather_messages (i : Nat) (ms : List Bytes) (h : gather s = ⟨[], [], tests, suites⟩) :
    gather (messageLines .save i ms ++ s) = ⟨[], ms.map clean, tests, suites⟩ := by
  induction ms generalizing i with
  | nil => exact h
  | cons m ms ih =>
    rw [messageLines]
    simp only [List.append_assoc]
    exact gather_message i (clean m) (ih (i + 1))

/-- The line for a test without messages. -/
def note (messages : List Bytes) : Bytes :=
  if messages.isEmpty then "    Error Message: No specific error message provided in JSON.\n" else ""

theorem assertion_save (a : Assertion) (s : Bytes) :
    assertion .save a ++ s = (("  Test: " : Bytes) ++ a.displayTitle) ++ ("\n" ++ ((("    Status: " : Bytes) ++ a.status) ++
      ("\n" ++ (note a.messages ++ (messageLines .save 1 a.messages ++ ("    ---" ++ ("\n" ++ s))))))) := by
  rw [assertion, note]
  cases a.messages.isEmpty <;> simp only [List.append_assoc] <;> rfl

theorem gather_note (ms : List Bytes) (h : gather s = ⟨[], messages, tests, suites⟩) :
    gather (note ms ++ s) = ⟨[], messages, tests, suites⟩ := by
  rw [note]
  split
  · show gather ("    Error Message: No specific error message provided in JSON." ++ ("\n" ++ s)) = _
    rw [gather_line (by decide), h]
    rfl
  · exact h

/-- A test that failed is read back. -/
theorem gather_assertion {a : Assertion} (hfailed : a.failed = true) (htitle : lf ∉ a.title)
    (h : gather s = ⟨[], [], tests, suites⟩) :
    gather (assertion .save a ++ s) = ⟨[], [], failedTest a :: tests, suites⟩ := by
  have hstatus : a.status = failedStatus := eq_of_beq hfailed
  have hdisplay : lf ∉ ("  Test: " : Bytes) ++ a.displayTitle := by
    rw [List.mem_append, not_or, Assertion.displayTitle]
    split
    · decide
    · exact ⟨by decide, htitle⟩
  have hend : gather ("    ---" ++ ("\n" ++ s)) = ⟨[], [], tests, suites⟩ := by
    rw [gather_line (by decide), h]
    rfl
  have hnote := gather_note a.messages (gather_messages 1 a.messages hend)
  rw [assertion_save, hstatus, gather_line hdisplay, gather_line (by decide), hnote]
  rfl

theorem gather_tests {as : List Assertion} (hfailed : ∀ a ∈ as, a.failed = true) (htitles : ∀ a ∈ as, lf ∉ a.title)
    (h : gather s = ⟨[], [], tests, suites⟩) :
    gather (as.flatMap (assertion .save) ++ s) = ⟨[], [], as.map failedTest ++ tests, suites⟩ := by
  induction as with
  | nil => exact h
  | cons a as ih =>
    rw [List.forall_mem_cons] at hfailed htitles
    rw [List.flatMap_cons, List.append_assoc]
    exact gather_assertion hfailed.1 htitles.1 (ih hfailed.2 htitles.2)

/-- An empty line tells nothing. -/
theorem gather_empty (s : Bytes) : gather ("\n" ++ s) = gather s := gather_line List.not_mem_nil s

theorem gather_suite {suite : Suite} (hname : lf ∉ suite.name) (htitles : ∀ a ∈ suite.assertions, lf ∉ a.title)
    (h : gather s = ⟨[], [], [], suites⟩) :
    gather (heading suite ++ suite.failures.flatMap (assertion .save) ++ s) =
      ⟨[], [], [], failedSuite suite :: suites⟩ := by
  have hheading : lf ∉ ("--- Test Suite FAILED: " : Bytes) ++ (suite.displayName ++ " ---") := by
    simp only [List.mem_append, not_or, Suite.displayName]
    refine ⟨by decide, ?_, by decide⟩
    split
    · decide
    · exact hname
  have htext : heading suite ++ suite.failures.flatMap (assertion .save) ++ s = ("\n" : Bytes) ++
      (("--- Test Suite FAILED: " ++ (suite.displayName ++ " ---")) ++
        ("\n" ++ (suite.failures.flatMap (assertion .save) ++ s))) := by
    rw [heading]
    simp only [List.append_assoc]
    rfl
  have htests := gather_tests (fun a ha => (List.mem_filter.1 ha).2)
    (fun a ha => htitles a (List.mem_filter.1 ha).1) h
  rw [htext, gather_empty, gather_line hheading, Suite.failures, htests, Gathered.add, readLine_suite]
  exact congrArg (fun tests => Gathered.mk [] [] [] (⟨suite.displayName, tests⟩ :: suites)) (List.append_nil _)

end Parts

/-! ### The whole report -/

/-- Do the names of the suites and the titles of the tests stand on one line each? -/
def OneLine (r : Results) : Prop := ∀ s ∈ r.suites, lf ∉ s.name ∧ ∀ a ∈ s.assertions, lf ∉ a.title

theorem gather_suites {ss : List Suite} (h : ∀ s ∈ ss, lf ∉ s.name ∧ ∀ a ∈ s.assertions, lf ∉ a.title) {s : Bytes}
    (hs : gather s = {}) :
    gather ((ss.flatMap fun suite => heading suite ++ suite.failures.flatMap (assertion .save)) ++ s) =
      ⟨[], [], [], ss.map failedSuite⟩ := by
  induction ss with
  | nil => exact hs
  | cons suite ss ih =>
    rw [List.forall_mem_cons] at h
    rw [List.flatMap_cons, List.append_assoc]
    exact gather_suite h.1.1 h.1.2 (ih h.2)

/-- The suites shown in a file are those with a failed test. -/
theorem shows_save (s : Suite) : shows .save s = s.assertions.any Assertion.failed := by
  rw [Bool.eq_iff_iff, List.any_eq_true]
  simp [shows, Suite.failures]

/-- **A report for a file tells the failed tests, and all reports count them.** From the text alone the reader gets
the suites with a failed test, in order, each with the titles and the messages of its failed tests. -/
theorem decode_plain (r : Results) :
    (r.suites ≠ [] → OneLine r → decode (plain .save r).1 = failedSuites r) ∧
      Counted r ((r.suites.flatMap Suite.assertions).countP Assertion.failed) := by
  refine ⟨fun hsuites hlines => ?_, counted r⟩
  have hshown : r.suites.filter (shows .save) = r.suites.filter fun s => s.assertions.any Assertion.failed :=
    List.filter_congr fun s _ => shows_save s
  rw [plain_of_suites hsuites, hshown, decode, gather_suites fun s hs => hlines s (List.mem_filter.1 hs).1]
  · rfl
  · show gather ("\n" ++ ("Total failed tests" ++ (" reported by Vitest: " ++ _))) = _
    rw [gather_empty, gather_totals]

/-- A message that imitates the lines of a report. -/
def imitation : Bytes := "Error\n  Test: other\n    ---\n\n--- Test Suite FAILED: b ---\nTotal failed tests"

theorem decode_plain_imitation :
    decode (plain .save ⟨"1", [⟨"a", "passed", [⟨"t", "failed", [imitation, []], none⟩, ⟨"u", "passed", [], none⟩]⟩]⟩).1 =
      [⟨"a", [⟨"t", [imitation, []]⟩]⟩] :=
  ((decode_plain ⟨"1", [⟨"a", "passed", [⟨"t", "failed", [imitation, []], none⟩, ⟨"u", "passed", [], none⟩]⟩]⟩).1
    (by simp) (by unfold OneLine; decide)).trans (by decide +kernel)

end Report

end Spotlight
