import Spotlight.Report.Text

/-!
# Reports in markdown

* `Report.codeFence` — a fence that no line of a message can close;
* `Report.markdown` — the failed tests of a results file as a markdown document.
-/

namespace Spotlight.Report

open Bytes Results

/-- The length of the longest run of grave accents, given that of the run in front of the text. -/
def longestRun : (run : Nat) → Bytes → Nat
  | run, [] => run
  | run, b :: s => if b = grave then longestRun (run + 1) s else max run (longestRun 0 s)

/-- A fence of at least three grave accents, and of more than any run of them in the text. -/
def codeFence (s : Bytes) : Bytes :=
  let longest := longestRun 0 s
  if longest < 3 then [grave, grave, grave] else List.replicate (longest + 1) grave

/-- A message in a fenced block of code. -/
def fenced (message : Bytes) : Bytes :=
  let text := clean message
  let fence := codeFence text
  "\n" ++ fence ++ "text\n" ++ Bytes.trimEnd lf text ++ "\n" ++ fence ++ "\n"

/-- One failed test under its heading. -/
def entry (a : Assertion) : Bytes :=
  "\n### " ++ a.displayTitle ++ "\n\n" ++
  (if a.location.isSome then "- Location: " ++ location a.location ++ "\n" else "") ++
  "- Status: " ++ a.status ++ "\n" ++ a.messages.flatMap fenced

/-- The heading of a suite. -/
def chapter (s : Suite) : Bytes := "\n## " ++ s.displayName ++ "\n"

/-- The failed tests of a results file as a markdown document. -/
def markdown (r : Results) : Bytes :=
  "# Failed tests\n" ++
  (if r.suites.isEmpty then "\n" ++ noResults ++ "\n"
  else
    let (text, failed) := writeSuites (fun s => !s.failures.isEmpty) chapter entry 0 r.suites
    text ++ "\nTotal failed tests reported by Vitest: " ++ r.reportedFailures ++ "\n" ++
      "\nTotal failed assertions parsed from details: " ++ ofNat failed ++ "\n")

end Spotlight.Report
