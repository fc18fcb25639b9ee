import Spotlight.Proofs.Json.Reading
import Spotlight.Proofs.Report.Suites
import Spotlight.Proofs.Terminal.Strip
import Spotlight.Proofs.Text.Decimal

/-!
# Escapes in reports

Messages are stripped of terminal escapes before they are shown; the names of suites and the titles of tests are not.
Nothing else that a report takes from a results file can hold an escape byte.

* `Results.IsLoaded` — can the messages and the number of some results come out of a file?
* `Results.isLoaded_of_parse` — those of the results that are read can;
* `Report.Escapes` — does the name of a suite or the title of a failed test hold an escape byte?
* `Report.esc_mem_plain`, `Report.esc_mem_markdown` — where the escape bytes of a report come from;
* `Report.esc_mem_iff_of_parse` — a report on what is read holds an escape byte just if a suite that it shows does.
-/

namespace Spotlight

open Bytes

namespace Results

open Json

/-! ### What is read -/

/-- Can the messages of the test come out of a file? -/
def Assertion.IsLoaded (a : Assertion) : Prop := ∀ m ∈ a.messages, Rune.repaired m = m

/-- Can the messages of the suite come out of a file? -/
def Suite.IsLoaded (s : Suite) : Prop := ∀ a ∈ s.assertions, a.IsLoaded

/-- Can the messages and the number of failed tests come out of a file? -/
def IsLoaded (r : Results) : Prop := r.reported.all isNumeral = true ∧ ∀ s ∈ r.suites, s.IsLoaded

theorem keeps_readAssertion : Reader.Keeps Assertion.IsLoaded readAssertion := by
  apply Reader.keeps_record
  simp only [List.forall_mem_cons, List.not_mem_nil, false_implies, implies_true, and_true]
  refine ⟨?title, ?status, ?messages, ?location⟩
  case messages => exact Reader.keeps_map (Reader.keeps_list Reader.keeps_string rfl) id fun _ hms => hms
  all_goals exact Reader.keeps_map (Reader.keeps_true _) (fun _ => trivial) fun ha _ => ha

theorem keeps_readSuite : Reader.Keeps Suite.IsLoaded readSuite := by
  apply Reader.keeps_record
  simp only [List.forall_mem_cons, List.not_mem_nil, false_implies, implies_true, and_true]
  refine ⟨?name, ?status, ?assertions⟩
  case assertions =>
    exact Reader.keeps_map (Reader.keeps_list keeps_readAssertion (fun _ hm => absurd hm List.not_mem_nil)) id
      fun _ has => has
  all_goals exact Reader.keeps_map (Reader.keeps_true _) (fun _ => trivial) fun hs _ => hs

/-- The messages and the number that are read from a file can come out of one. -/
theorem isLoaded_of_parse {json : Bytes} {r : Results} (h : parse json = some r) : r.IsLoaded := by
  obtain ⟨v, hv, hread⟩ := Option.bind_eq_some_iff.1 h
  have hkeeps : Reader.Keeps IsLoaded read := by
    apply Reader.keeps_record
    simp only [List.forall_mem_cons, List.not_mem_nil, false_implies, implies_true, and_true]
    exact ⟨Reader.keeps_map Reader.keeps_number And.left fun hr hn => ⟨hn, hr.2⟩,
      Reader.keeps_map (Reader.keeps_list keeps_readSuite (fun _ ha => absurd ha List.not_mem_nil)) And.right
        fun hr hss => ⟨hr.1, hss⟩⟩
  exact hkeeps _ _ _ ⟨rfl, fun _ hs => absurd hs List.not_mem_nil⟩ (sound_of_parse hv) hread

end Results

namespace Report

open Results

/-- The byte that starts a terminal escape. -/
abbrev esc : UInt8 := 0x1b

/-- Does the name of the suite or the title of one of its failed tests hold an escape byte? -/
def Escapes (s : Suite) : Prop := esc ∈ s.name ∨ ∃ a ∈ s.failures, esc ∈ a.title

/-! ### What is shown -/

theorem esc_mem_displayName (s : Suite) : esc ∈ s.displayName ↔ esc ∈ s.name := by
  rw [Suite.displayName]
  split
  · rename_i h
    rw [List.isEmpty_iff.1 h]
    decide
  · rfl

theorem esc_mem_displayTitle (a : Assertion) : esc ∈ a.displayTitle ↔ esc ∈ a.title := by
  rw [Assertion.displayTitle]
  split
  · rename_i h
    rw [List.isEmpty_iff.1 h]
    decide
  · rfl

/-- A message that is read is stripped of all escapes. -/
theorem esc_not_mem_clean {m : Bytes} (h : Rune.repaired m = m) : esc ∉ clean m := by
  apply Terminal.not_mem_strip
  rw [← h]
  exact isUtf8_repaired m

theorem esc_not_mem_ofInt (n : Int) : esc ∉ ofInt n := by
  cases n with
  | ofNat n => exact not_mem_ofNat rfl n
  | negSucc n => exact List.not_mem_cons_of_ne_of_not_mem (by decide) (not_mem_ofNat rfl (n + 1))

theorem esc_not_mem_location (l : Option Location) : esc ∉ location l := by
  cases l with
  | none => decide
  | some l =>
    simp only [location, List.mem_append, not_or]
    exact ⟨⟨⟨by decide, esc_not_mem_ofInt l.line⟩, by decide⟩, esc_not_mem_ofInt l.column⟩

theorem esc_not_mem_replaceByte {new s : Bytes} (hnew : esc ∉ new) (hs : esc ∉ s) (b : UInt8) :
    esc ∉ replaceByte b new s := by
  intro h
  obtain ⟨c, hc, hmem⟩ := List.mem_flatMap.1 h
  split at hmem
  · exact hnew hmem
  · rw [List.mem_singleton.1 hmem] at hs
    exact hs hc

theorem esc_not_mem_messageLines (layout : Layout) (i : Nat) {ms : List Bytes} (h : ∀ m ∈ ms, Rune.repaired m = m) :
    esc ∉ messageLines layout i ms := by
  induction ms generalizing i with
  | nil => exact List.not_mem_nil
  | cons m ms ih =>
    rw [List.forall_mem_cons] at h
    have hclean := esc_not_mem_clean h.1
    simp only [messageLines, List.mem_append, not_or]
    refine ⟨⟨⟨⟨⟨by decide, not_mem_ofNat rfl i⟩, by decide⟩, ?body⟩, by decide⟩, ih (i + 1) h.2⟩
    cases layout with
    | print => exact hclean
    | save => exact esc_not_mem_replaceByte (by decide) hclean lf

/-- A text without escapes around another one adds none. -/
theorem esc_mem_between {x y z : Bytes} (hx : esc ∉ x) (hz : esc ∉ z) : esc ∈ x ++ (y ++ z) ↔ esc ∈ y := by
  simp only [List.mem_append, hx, hz, false_or, or_false]

theorem esc_mem_assertion (layout : Layout) {a : Assertion} (hfailed : a.failed = true) (ha : a.IsLoaded) :
    esc ∈ assertion layout a ↔ esc ∈ a.title := by
  have hstatus : a.status = failedStatus := eq_of_beq hfailed
  rw [assertion, hstatus, ← esc_mem_displayTitle]
  simp only [List.append_assoc]
  refine esc_mem_between (by decide) ?_
  simp only [List.mem_append, not_or]
  refine ⟨by decide, by decide, by decide, ?note, esc_not_mem_messageLines layout 1 ha, ?location, by decide⟩
  case note => split <;> decide
  case location =>
    split
    · simp only [List.mem_append, not_or]
      exact ⟨by decide, esc_not_mem_location a.location, by decide⟩
    · decide

theorem esc_not_mem_fenced {m : Bytes} (h : Rune.repaired m = m) : esc ∉ fenced m := by
  have hfence : esc ∉ codeFence (clean m) := by
    rw [codeFence]
    split
    · decide
    · exact fun hmem => absurd (List.eq_of_mem_replicate hmem) (by decide)
  have htext : esc ∉ trimEnd lf (clean m) := by
    intro hmem
    rw [trimEnd, List.mem_reverse] at hmem
    exact esc_not_mem_clean h (List.mem_reverse.1 ((List.dropWhile_sublist _).mem hmem))
  simp only [fenced, List.mem_append, not_or]
  exact ⟨⟨⟨⟨⟨⟨by decide, hfence⟩, by decide⟩, htext⟩, by decide⟩, hfence⟩, by decide⟩

theorem esc_mem_entry {a : Assertion} (hfailed : a.failed = true) (ha : a.IsLoaded) :
    esc ∈ entry a ↔ esc ∈ a.title := by
  have hstatus : a.status = failedStatus := eq_of_beq hfailed
  have hmessages : esc ∉ a.messages.flatMap fenced := by
    intro hmem
    obtain ⟨m, hm, hmem⟩ := List.mem_flatMap.1 hmem
    exact esc_not_mem_fenced (ha m hm) hmem
  rw [entry, hstatus, ← esc_mem_displayTitle]
  simp only [List.append_assoc]
  refine esc_mem_between (by decide) ?_
  simp only [List.mem_append, not_or]
  refine ⟨by decide, ?location, by decide, by decide, by decide, hmessages⟩
  split
  · simp only [List.mem_append, not_or]
    exact ⟨by decide, esc_not_mem_location a.location, by decide⟩
  · decide

/-! ### Where escapes come from -/

/-- Suites that are shown with their failed tests. -/
theorem esc_mem_suites {ss : List Suite} (hss : ∀ s ∈ ss, s.IsLoaded) {heading : Suite → Bytes}
    {test : Assertion → Bytes} (hheading : ∀ s, esc ∈ heading s ↔ esc ∈ s.name)
    (htest : ∀ a : Assertion, a.failed = true → a.IsLoaded → (esc ∈ test a ↔ esc ∈ a.title)) (shows : Suite → Bool) :
    esc ∈ ((ss.filter shows).flatMap fun s => heading s ++ s.failures.flatMap test) ↔
      ∃ s ∈ ss, shows s = true ∧ Escapes s := by
  have hsuite : ∀ s ∈ ss, (esc ∈ heading s ++ s.failures.flatMap test ↔ Escapes s) := by
    intro s hs
    rw [List.mem_append, hheading, List.mem_flatMap, Escapes]
    refine or_congr_right (exists_congr fun a => and_congr_right fun ha => ?_)
    obtain ⟨hmem, hfailed⟩ := List.mem_filter.1 ha
    exact htest a hfailed (hss s hs a hmem)
  rw [List.mem_flatMap]
  constructor
  · rintro ⟨s, hs, hesc⟩
    obtain ⟨hmem, hshown⟩ := List.mem_filter.1 hs
    exact ⟨s, hmem, hshown, (hsuite s hmem).1 hesc⟩
  · rintro ⟨s, hmem, hshown, hesc⟩
    exact ⟨s, List.mem_filter.2 ⟨hmem, hshown⟩, (hsuite s hmem).2 hesc⟩

theorem esc_not_mem_totalLine (n : Nat) : esc ∉ totalLine n := by
  simp only [totalLine, List.mem_append, not_or]
  exact ⟨⟨by decide, not_mem_ofNat rfl n⟩, by decide⟩

theorem esc_not_mem_reportedFailures {r : Results} (h : r.IsLoaded) : esc ∉ r.reportedFailures := by
  rw [Results.reportedFailures]
  split
  · decide
  · exact fun hmem => absurd (List.all_eq_true.1 h.1 esc hmem) (by decide)

/-- The escape bytes of a plain report stand in the names and titles that it shows. -/
theorem esc_mem_plain {r : Results} (h : r.IsLoaded) (layout : Layout) :
    esc ∈ (plain layout r).1 ↔ ∃ s ∈ r.suites, shows layout s = true ∧ Escapes s := by
  by_cases hsuites : r.suites = []
  · rw [plain, if_pos (by simpa using hsuites), hsuites]
    simp only [List.not_mem_nil, false_and, exists_false, iff_false]
    decide
  · have hheading : ∀ s, esc ∈ heading s ↔ esc ∈ s.name := by
      intro s
      rw [heading, List.append_assoc, esc_mem_between (by decide) (by decide), esc_mem_displayName]
    have htotals : esc ∉ ("\nTotal failed tests reported by Vitest: " : Bytes) ++ (r.reportedFailures ++ ("\n" ++
        totalLine ((r.suites.flatMap Suite.assertions).countP Assertion.failed))) := by
      simp only [List.mem_append, not_or]
      exact ⟨by decide, esc_not_mem_reportedFailures h, by decide, esc_not_mem_totalLine _⟩
    rw [plain_of_suites hsuites, ← esc_mem_suites h.2 hheading fun a hfailed ha => esc_mem_assertion layout hfailed ha,
      List.mem_append, or_iff_left htotals]

/-- The escape bytes of a markdown report stand in the names and titles that it shows. -/
theorem esc_mem_markdown {r : Results} (h : r.IsLoaded) :
    esc ∈ markdown r ↔ ∃ s ∈ r.suites, s.failures ≠ [] ∧ Escapes s := by
  by_cases hsuites : r.suites = []
  · rw [markdown, if_pos (by simpa using hsuites), hsuites]
    simp only [List.not_mem_nil, false_and, exists_false, iff_false]
    decide
  · have hheading : ∀ s, esc ∈ chapter s ↔ esc ∈ s.name := by
      intro s
      rw [chapter, List.append_assoc, esc_mem_between (by decide) (by decide), esc_mem_displayName]
    have htotals : esc ∉ ("\nTotal failed tests reported by Vitest: " : Bytes) ++ (r.reportedFailures ++ ("\n\n" ++
        totalLine ((r.suites.flatMap Suite.assertions).countP Assertion.failed))) := by
      simp only [List.mem_append, not_or]
      exact ⟨by decide, esc_not_mem_reportedFailures h, by decide, esc_not_mem_totalLine _⟩
    have hshown : ∀ s : Suite, s.failures ≠ [] ↔ (!s.failures.isEmpty) = true := by simp
    simp only [hshown]
    rw [markdown_of_suites hsuites, ← esc_mem_suites h.2 hheading fun a hfailed ha => esc_mem_entry hfailed ha,
      esc_mem_between (by decide) htotals]

/-- **Only names and titles bring escapes into a report.** A report on what is read from a file holds an escape byte
just if it shows a suite with one in its name or in the title of a failed test. -/
theorem esc_mem_iff_of_parse {json : Bytes} {r : Results} (h : Results.parse json = some r) :
    (∀ layout, esc ∈ (plain layout r).1 ↔ ∃ s ∈ r.suites, shows layout s = true ∧ Escapes s) ∧
      (esc ∈ markdown r ↔ ∃ s ∈ r.suites, s.failures ≠ [] ∧ Escapes s) :=
  ⟨esc_mem_plain (isLoaded_of_parse h), esc_mem_markdown (isLoaded_of_parse h)⟩

/-- The results of a file with one failed test, which tells a red message. -/
def redMessage : Bytes :=
  "\x7b\"testResults\":[\x7b\"assertionResults\":[\x7b\"status\":\"failed\",\"failureMessages\":[\"\\u001b[31mred\"]\x7d]\x7d]\x7d"

theorem esc_mem_iff_of_parse_redMessage :
    ∃ r, Results.parse redMessage = some r ∧ r.suites ≠ [] ∧ (∀ layout, esc ∉ (plain layout r).1) ∧ esc ∉ markdown r := by
  have h : Results.parse redMessage =
      some ⟨[], [⟨[], [], [⟨[], failedStatus, ["\x1b[31mred"], none⟩]⟩]⟩ := by decide +kernel
  have hescapes : ¬ Escapes ⟨[], [], [⟨[], failedStatus, ["\x1b[31mred"], none⟩]⟩ := by
    unfold Escapes
    decide
  have hboth := esc_mem_iff_of_parse h
  refine ⟨_, h, by simp, fun layout hesc => ?_, fun hesc => ?_⟩
  · obtain ⟨s, hs, -, hs'⟩ := (hboth.1 layout).1 hesc
    rw [List.mem_singleton.1 hs] at hs'
    exact hescapes hs'
  · obtain ⟨s, hs, -, hs'⟩ := hboth.2.1 hesc
    rw [List.mem_singleton.1 hs] at hs'
    exact hescapes hs'

/-- The results of a file with one failed test in a suite with a red name. -/
def redName : Bytes :=
  "\x7b\"testResults\":[\x7b\"name\":\"\\u001b[31mx\",\"assertionResults\":[\x7b\"status\":\"failed\"\x7d]\x7d]\x7d"

/-- A name keeps its escapes, and they stand in the report. -/
theorem red_name_is_shown : ¬ ∀ json r, Results.parse json = some r →
    (∀ layout, esc ∉ (plain layout r).1) ∧ esc ∉ markdown r := by
  intro h
  have hparse : Results.parse redName = some ⟨[], [⟨"\x1b[31mx", [], [⟨[], failedStatus, [], none⟩]⟩]⟩ := by
    decide +kernel
  exact (h _ _ hparse).1 .save (by decide +kernel)

end Report

end Spotlight
