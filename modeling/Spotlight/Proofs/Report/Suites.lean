import Spotlight.Report.Format

/-!
# The suites of a report

Plain text and markdown go through the suites in the same way, with a test of their own for the suites that are
shown, and count the failed tests on the way.

* `Report.writeSuites_eq` — the text of the suites that are shown, and how many failed tests they have;
* `Report.plain_of_suites`, `Report.markdown_of_suites` — the two reports on some suites;
* `Report.counted` — all reports give the number of failed tests.
-/

namespace Spotlight

open Bytes Results

namespace Report

/-! ### What is written -/

theorem writeTests_eq (test : Assertion → Bytes) (failed : Nat) (as : List Assertion) :
    writeTests test failed as = (as.flatMap test, failed + as.length) := by
  induction as generalizing failed with
  | nil => rfl
  | cons a as ih =>
    rw [writeTests, ih, List.flatMap_cons, List.length_cons, Nat.add_assoc, Nat.add_comm 1]

/-- The suites that are shown stand one after the other, each with its failed tests under its heading. -/
theorem writeSuites_eq (shows : Suite → Bool) (heading : Suite → Bytes) (test : Assertion → Bytes) (failed : Nat)
    (ss : List Suite) : writeSuites shows heading test failed ss =
      ((ss.filter shows).flatMap fun s => heading s ++ s.failures.flatMap test,
        failed + ((ss.filter shows).flatMap Suite.failures).length) := by
  induction ss generalizing failed with
  | nil => rfl
  | cons s ss ih =>
    rw [writeSuites, List.filter_cons]
    split
    · rw [writeTests_eq]
      dsimp only
      rw [ih, List.flatMap_cons, List.flatMap_cons, List.length_append, Nat.add_assoc]
    · exact ih failed

/-- A suite that is not shown has no failed tests, whatever the layout. -/
theorem shows_of_failures {s : Suite} (h : s.failures ≠ []) (layout : Layout) : shows layout s = true := by
  cases layout with
  | print => simp [shows, Suite.failed, h]
  | save => simp [shows, h]

/-! ### How many are counted -/

theorem countP_assertions (s : Suite) : s.assertions.countP Assertion.failed = s.failures.length :=
  List.countP_eq_length_filter

/-- The failed tests of all suites are those of the suites that are shown. -/
theorem length_shown {shows : Suite → Bool} (hshows : ∀ s : Suite, s.failures ≠ [] → shows s = true)
    (ss : List Suite) :
    ((ss.filter shows).flatMap Suite.failures).length = (ss.flatMap Suite.assertions).countP Assertion.failed := by
  induction ss with
  | nil => rfl
  | cons s ss ih =>
    rw [List.flatMap_cons, List.countP_append, ← ih, countP_assertions, List.filter_cons]
    split
    · rw [List.flatMap_cons, List.length_append]
    · rename_i hhidden
      have hnone : s.failures = [] := Classical.not_not.1 fun hne => hhidden (hshows s hne)
      rw [hnone, List.length_nil, Nat.zero_add]

/-- The last line of a report, which tells the number of failed tests. -/
def totalLine (n : Nat) : Bytes := "Total failed assertions parsed from details: " ++ ofNat n ++ "\n"

/-- A plain report on some suites. -/
theorem plain_of_suites {r : Results} (h : r.suites ≠ []) (layout : Layout) :
    plain layout r =
      (((r.suites.filter (shows layout)).flatMap fun s => heading s ++ s.failures.flatMap (assertion layout)) ++
        ("\nTotal failed tests reported by Vitest: " ++ (r.reportedFailures ++
          ("\n" ++ totalLine ((r.suites.flatMap Suite.assertions).countP Assertion.failed)))),
        (r.suites.flatMap Suite.assertions).countP Assertion.failed) := by
  have hlength := length_shown (fun s hs => shows_of_failures hs layout) r.suites
  rw [plain, if_neg (by simpa using h)]
  dsimp only
  rw [writeSuites_eq, hlength, Nat.zero_add, totalLine]
  simp only [List.append_assoc]

/-- A markdown report on some suites. -/
theorem markdown_of_suites {r : Results} (h : r.suites ≠ []) :
    markdown r = "# Failed tests\n" ++
      (((r.suites.filter fun s => !s.failures.isEmpty).flatMap fun s => chapter s ++ s.failures.flatMap entry) ++
        ("\nTotal failed tests reported by Vitest: " ++ (r.reportedFailures ++
          ("\n\n" ++ totalLine ((r.suites.flatMap Suite.assertions).countP Assertion.failed))))) := by
  have hshows : ∀ s : Suite, s.failures ≠ [] → (!s.failures.isEmpty) = true := by simp
  have hlength := length_shown hshows r.suites
  rw [markdown, if_neg (by simpa using h)]
  dsimp only
  rw [writeSuites_eq, hlength, Nat.zero_add, totalLine]
  simp only [List.append_assoc]
  rfl

theorem foldl_failures (ss : List Suite) (n : Nat) : ss.foldl (fun n s => n + s.failures.length) n =
    n + (ss.flatMap Suite.assertions).countP Assertion.failed := by
  induction ss generalizing n with
  | nil => rfl
  | cons s ss ih =>
    rw [List.foldl_cons, ih, List.flatMap_cons, List.countP_append, countP_assertions, Nat.add_assoc]

theorem countFailed_eq (r : Results) :
    r.countFailed = (r.suites.flatMap Suite.assertions).countP Assertion.failed := by
  rw [Results.countFailed, foldl_failures, Nat.zero_add]

/-- Do all reports on the results give `n` as the number of failed tests? Where there are suites at all, it stands at
the end of plain text and of markdown. -/
structure Counted (r : Results) (n : Nat) : Prop where
  plain_eq : ∀ layout, (plain layout r).2 = n
  render_eq : ∀ format layout, (render r format layout).2 = n
  told : r.suites ≠ [] → ∀ layout, totalLine n <:+ (plain layout r).1
  told_markdown : r.suites ≠ [] → totalLine n <:+ markdown r

/-- All reports give the number of failed tests. -/
theorem counted (r : Results) : Counted r ((r.suites.flatMap Suite.assertions).countP Assertion.failed) := by
  have hplain : ∀ layout, (plain layout r).2 = (r.suites.flatMap Suite.assertions).countP Assertion.failed := by
    intro layout
    by_cases h : r.suites = []
    · rw [plain, if_pos (by simpa using h), h]
      rfl
    · rw [plain_of_suites h]
  refine ⟨hplain, fun format layout => ?_, fun h layout => ?_, fun h => ?_⟩
  · cases format with
    | text => exact hplain layout
    | markdown => exact countFailed_eq r
    | html => exact countFailed_eq r
  · rw [plain_of_suites h]
    dsimp only
    simp only [← List.append_assoc]
    exact List.suffix_append _ _
  · rw [markdown_of_suites h]
    simp only [← List.append_assoc]
    exact List.suffix_append _ _

end Report

end Spotlight
