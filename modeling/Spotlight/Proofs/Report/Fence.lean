import Spotlight.Markup.Line
import Spotlight.Report.Markdown

/-!
# Messages stay inside their fences

In a markdown report every message stands in a block of code between two fences. A reader of markdown takes the
first line that is a closing fence for the end of the block, whoever wrote it.

* `Markup.lines`, `Markup.lines_append` — the lines of a document, which is cut behind its line feeds;
* `Markup.Fence.closedBy` — does a line close the block of code that a fence has opened?
* `Markup.readCode?` — the block of code at the head of some lines;
* `Report.le_longestRun` — no run of grave accents is longer than the longest one;
* `Report.readCode?_fenced` — the block of a message holds the lines of the message, and ends with its last line.
-/

namespace Spotlight.Markup

open Bytes

/-! ### Lines -/

/-- A byte in front of the first line, or in a line of its own. -/
def intoFirst (b : UInt8) : List Bytes → List Bytes
  | [] => [[b]]
  | line :: more => (b :: line) :: more

/-- The lines of a document. A line ends with a line feed, a carriage return, or a carriage return and a line feed;
the last one need not end. -/
def lines : Bytes → List Bytes
  | [] => []
  | cr :: lf :: s => [] :: lines s
  | b :: s => if b = lf || b = cr then [] :: lines s else intoFirst b (lines s)

theorem lines_break {b : UInt8} {s : Bytes} (hb : b = lf ∨ b = cr) (hs : b = cr → s.head? ≠ some lf) :
    lines (b :: s) = [] :: lines s := by
  rw [lines, if_pos (by simpa using hb)]
  rintro t rfl rfl
  exact hs rfl rfl

theorem lines_byte {b : UInt8} (hlf : b ≠ lf) (hcr : b ≠ cr) (s : Bytes) :
    lines (b :: s) = intoFirst b (lines s) := by
  rw [lines, if_neg (by simp [hlf, hcr])]
  exact fun t hb _ => hcr hb

theorem lines_lf (s : Bytes) : lines (lf :: s) = [] :: lines s :=
  lines_break (.inl rfl) fun h => absurd h (by decide)

theorem intoFirst_ne_nil (b : UInt8) (ls : List Bytes) : intoFirst b ls ≠ [] := by
  cases ls <;> simp [intoFirst]

theorem intoFirst_append (b : UInt8) {ls : List Bytes} (h : ls ≠ []) (ls' : List Bytes) :
    intoFirst b (ls ++ ls') = intoFirst b ls ++ ls' := by
  cases ls with
  | nil => exact absurd rfl h
  | cons line more => rfl

theorem lines_ne_nil {s : Bytes} (h : s ≠ []) : lines s ≠ [] := by
  fun_cases lines s with
  | case1 => exact absurd rfl h
  | case2 | case3 => simp
  | case4 b => exact intoFirst_ne_nil b _

/-- A document is cut behind a line feed. -/
theorem lines_append (x y : Bytes) : lines (x ++ lf :: y) = lines (x ++ [lf]) ++ lines y := by
  fun_induction lines x with
  | case1 =>
    rw [List.nil_append, List.nil_append, lines_lf, lines_lf]
    rfl
  | case2 x ih =>
    show [] :: lines (x ++ lf :: y) = [] :: lines (x ++ [lf]) ++ lines y
    rw [ih, List.cons_append]
  | case3 b x hpair hb ih =>
    by_cases hend : b = cr ∧ x = []
    · -- the carriage return and the line feed behind it are one line end
      obtain ⟨rfl, rfl⟩ := hend
      rfl
    · have hhead : ∀ t : Bytes, b = cr → (x ++ lf :: t).head? ≠ some lf := by
        intro t hcr hlf
        cases x with
        | nil => exact hend ⟨hcr, rfl⟩
        | cons c x =>
          obtain rfl := Option.some.inj hlf
          exact hpair x hcr rfl
      have hb : b = lf ∨ b = cr := by simpa using hb
      rw [List.cons_append, List.cons_append, lines_break hb (hhead y), lines_break hb (hhead []), ih,
        List.cons_append]
  | case4 b x hpair hb ih =>
    have hb : b ≠ lf ∧ b ≠ cr := by simpa using hb
    have hne : lines (x ++ [lf]) ≠ [] := lines_ne_nil (by simp)
    rw [List.cons_append, List.cons_append, lines_byte hb.1 hb.2, lines_byte hb.1 hb.2, ih,
      intoFirst_append b hne]

/-- A line without line ends inside. -/
theorem lines_line {line : Bytes} (h : ∀ b ∈ line, b ≠ lf ∧ b ≠ cr) : lines (line ++ [lf]) = [line] := by
  induction line with
  | nil => rfl
  | cons b line ih =>
    rw [List.forall_mem_cons] at h
    rw [List.cons_append, lines_byte h.1.1 h.1.2, ih h.2]
    rfl

/-- The first line of a document is its head, and every line stands in it. -/
theorem line_of_mem (s : Bytes) : (∀ line ∈ (lines s).head?, line <+: s) ∧ ∀ line ∈ lines s, line <:+: s := by
  fun_induction lines s with
  | case1 => simp
  | case2 s ih =>
    refine ⟨by simp, ?_⟩
    rw [List.forall_mem_cons]
    exact ⟨List.nil_infix, fun line h => (ih.2 line h).trans (List.suffix_append [cr, lf] s).isInfix⟩
  | case3 b s hpair hb ih =>
    refine ⟨by simp, ?_⟩
    rw [List.forall_mem_cons]
    exact ⟨List.nil_infix, fun line h => (ih.2 line h).trans (List.suffix_cons b s).isInfix⟩
  | case4 b s hpair hb ih =>
    cases hlines : lines s with
    | nil => simp [intoFirst, List.infix_cons_iff]
    | cons first more =>
      have hfirst : b :: first <+: b :: s := (List.prefix_cons_inj b).2 (ih.1 first (by rw [hlines]; rfl))
      refine ⟨by simpa [intoFirst] using hfirst, ?_⟩
      rw [intoFirst, List.forall_mem_cons]
      refine ⟨hfirst.isInfix, fun line h => ?_⟩
      have hline : line ∈ lines s := by
        rw [hlines]
        exact List.mem_cons_of_mem first h
      exact (ih.2 line hline).trans (List.suffix_cons b s).isInfix

/-! ### Blocks of code -/

/-- Does the line close the block of code that the fence has opened? At most three spaces stand in front of its marks,
which are at least as many as those of the fence, and nothing but spaces and tabs behind them. -/
def Fence.closedBy (f : Fence) (line : Bytes) : Bool :=
  let marks := line.dropWhile (· == space)
  (line.takeWhile (· == space)).length ≤ 3 && f.size ≤ (marks.takeWhile (· == f.mark)).length &&
    (marks.dropWhile (· == f.mark)).all fun b => b == space || b == tab

/-- The block of code at the head of some lines: the fence that opens it, the lines inside, and what is left from the
line on that closes it. -/
def readCode? : List Bytes → Option (Fence × List Bytes × List Bytes)
  | [] => none
  | first :: more => (readFence? first).map fun f =>
    (f, more.takeWhile (!f.closedBy ·), more.dropWhile (!f.closedBy ·))

/-- A line that closes a block holds as many marks as the fence. -/
theorem Fence.infix_of_closedBy {f : Fence} {line : Bytes} (h : f.closedBy line = true) :
    List.replicate f.size f.mark <:+: line := by
  simp only [closedBy, Bool.and_eq_true, decide_eq_true_eq] at h
  obtain ⟨⟨-, hsize⟩, -⟩ := h
  generalize hmarks : line.dropWhile (· == space) = marks at hsize
  have hrun : marks.takeWhile (· == f.mark) = List.replicate (marks.takeWhile (· == f.mark)).length f.mark := by
    rw [List.eq_replicate_iff]
    exact ⟨rfl, fun b hb => by simpa using List.all_eq_true.1 List.all_takeWhile b hb⟩
  have hheld : List.replicate f.size f.mark <+: marks.takeWhile (· == f.mark) := by
    rw [hrun]
    exact ⟨List.replicate ((marks.takeWhile (· == f.mark)).length - f.size) f.mark, by
      rw [List.replicate_append_replicate, Nat.add_sub_cancel' hsize]⟩
  have hsuffix : marks <:+ line := hmarks ▸ List.dropWhile_suffix _
  exact (hheld.trans (List.takeWhile_prefix _)).isInfix.trans hsuffix.isInfix

/-- A line of nothing but the marks of the fence closes the block. -/
theorem Fence.closedBy_marks {f : Fence} (h : f.mark ≠ space) : f.closedBy (List.replicate f.size f.mark) = true := by
  cases hsize : f.size with
  | zero => simp [closedBy, hsize]
  | succ n => simp [closedBy, hsize, List.replicate_succ, h]

/-- The block that a fence opens, with lines inside that do not close it. -/
theorem readCode?_of_closedBy {first : Bytes} {f : Fence} (hfirst : readFence? first = some f) {content rest : List Bytes}
    {last : Bytes} (hcontent : ∀ line ∈ content, f.closedBy line = false) (hlast : f.closedBy last = true) :
    readCode? (first :: (content ++ last :: rest)) = some (f, content, last :: rest) := by
  have hopen : ∀ line ∈ content, (!f.closedBy line) = true := by
    intro line h
    rw [hcontent line h]
    rfl
  rw [readCode?, hfirst, Option.map_some, List.takeWhile_append_of_pos hopen, List.dropWhile_append_of_pos hopen,
    List.takeWhile_cons, List.dropWhile_cons, hlast]
  simp

end Spotlight.Markup

namespace Spotlight.Report

open Bytes Markup

/-! ### The longest run -/

theorem le_longestRun_self (run : Nat) (s : Bytes) : run ≤ longestRun run s := by
  induction s generalizing run with
  | nil => exact Nat.le_refl run
  | cons b s ih =>
    rw [longestRun]
    split
    · exact Nat.le_of_succ_le (ih (run + 1))
    · exact Nat.le_max_left run _

/-- A run goes on into the text. -/
theorem add_le_longestRun (run n : Nat) (s : Bytes) : run + n ≤ longestRun run (List.replicate n grave ++ s) := by
  induction n generalizing run with
  | zero => exact le_longestRun_self run s
  | succ n ih =>
    rw [List.replicate_succ, List.cons_append, longestRun, if_pos rfl]
    have := ih (run + 1)
    omega

/-- No run of grave accents is longer than the longest one. -/
theorem le_longestRun {n : Nat} {s : Bytes} (h : List.replicate n grave <:+: s) (run : Nat) : n ≤ longestRun run s := by
  obtain ⟨x, y, rfl⟩ := h
  rw [List.append_assoc]
  induction x generalizing run with
  | nil =>
    have := add_le_longestRun run n y
    rw [List.nil_append]
    omega
  | cons b x ih =>
    rw [List.cons_append, longestRun]
    split
    · exact ih (run + 1)
    · exact Nat.le_trans (ih 0) (Nat.le_max_right run _)

/-- A run ends at a line feed. -/
theorem longestRun_append (run : Nat) (s t : Bytes) :
    longestRun run (s ++ lf :: t) = max (longestRun run s) (longestRun 0 t) := by
  induction s generalizing run with
  | nil => rfl
  | cons b s ih =>
    rw [List.cons_append, longestRun, longestRun]
    split
    · exact ih (run + 1)
    · rw [ih 0, Nat.max_assoc]

/-- Only line feeds are trimmed from the end of a text. -/
theorem trimEnd_cases (s : Bytes) : s = Bytes.trimEnd lf s ∨ ∃ t, s = Bytes.trimEnd lf s ++ lf :: t := by
  have hsplit : s = Bytes.trimEnd lf s ++ (s.reverse.takeWhile (· == lf)).reverse := by
    rw [Bytes.trimEnd, ← List.reverse_append, List.takeWhile_append_dropWhile, List.reverse_reverse]
  cases hend : (s.reverse.takeWhile (· == lf)).reverse with
  | nil =>
    rw [hend, List.append_nil] at hsplit
    exact .inl hsplit
  | cons b t =>
    have hmem : b ∈ s.reverse.takeWhile (· == lf) := by
      rw [← List.mem_reverse, hend]
      exact List.mem_cons_self
    have hb : b = lf := by simpa using List.all_eq_true.1 List.all_takeWhile b hmem
    rw [hend, hb] at hsplit
    exact .inr ⟨t, hsplit⟩

/-- Trimming a text and ending its last line makes no run longer. -/
theorem longestRun_trimEnd (s : Bytes) : longestRun 0 (Bytes.trimEnd lf s ++ [lf]) ≤ longestRun 0 s := by
  have htrim : longestRun 0 (Bytes.trimEnd lf s ++ [lf]) = longestRun 0 (Bytes.trimEnd lf s) := by
    rw [longestRun_append, longestRun, Nat.max_zero]
  rw [htrim]
  rcases trimEnd_cases s with h | ⟨t, h⟩
  · exact Nat.le_of_eq (congrArg (longestRun 0) h.symm)
  · calc longestRun 0 (Bytes.trimEnd lf s)
        ≤ longestRun 0 (Bytes.trimEnd lf s ++ lf :: t) := by
          rw [longestRun_append]
          exact Nat.le_max_left _ _
      _ = longestRun 0 s := by rw [← h]

/-! ### Fences -/

theorem codeFence_eq (s : Bytes) :
    ∃ n, codeFence s = List.replicate n grave ∧ 3 ≤ n ∧ longestRun 0 s < n := by
  rw [codeFence]
  split
  · exact ⟨3, rfl, Nat.le_refl 3, ‹_›⟩
  · exact ⟨longestRun 0 s + 1, rfl, by omega, Nat.lt_succ_self _⟩

/-- The first line of a block is read as its fence. -/
theorem readFence?_text {n : Nat} (h : 3 ≤ n) :
    readFence? (List.replicate n grave ++ Bytes.ofString "text") = some ⟨grave, n, "text"⟩ := by
  obtain ⟨n, rfl⟩ : ∃ k, n = k + 1 := ⟨n - 1, by omega⟩
  have hrun : ((List.replicate n grave ++ Bytes.ofString "text").takeWhile (· == grave)).length = n := by
    have hword : (Bytes.ofString "text").takeWhile (· == grave) = [] := by decide
    rw [List.takeWhile_append_of_pos (by simp), hword, List.append_nil, List.length_replicate]
  have hdrop : (List.replicate n grave ++ Bytes.ofString "text").drop n = Bytes.ofString "text" :=
    List.drop_left' List.length_replicate
  have hinfo : trimmed (Bytes.ofString "text") = Bytes.ofString "text" := by decide
  have hplain : List.contains (Bytes.ofString "text") grave = false := by decide
  rw [List.replicate_succ, List.cons_append, readFence?]
  simp only [hrun, Nat.add_sub_cancel, hdrop, hinfo, hplain]
  simp [h]

/-- The lines of a block are its fence, the lines it holds, and its fence again. -/
theorem lines_block {fence : Bytes} (hfence : ∀ b ∈ fence, b = grave) (text : Bytes) :
    lines (fence ++ "text\n" ++ text ++ "\n" ++ fence ++ "\n") =
      (fence ++ Bytes.ofString "text") :: (lines (text ++ [lf]) ++ fence :: []) := by
  have hmarks : ∀ b ∈ fence, b ≠ lf ∧ b ≠ cr := by
    intro b hb
    rw [hfence b hb]
    decide
  have hword : ∀ b ∈ Bytes.ofString "text", b ≠ lf ∧ b ≠ cr := by decide +kernel
  have hfirst : ∀ b ∈ fence ++ Bytes.ofString "text", b ≠ lf ∧ b ≠ cr :=
    fun b hb => (List.mem_append.1 hb).elim (hmarks b) (hword b)
  have hblock : fence ++ Bytes.ofString "text\n" ++ text ++ [lf] ++ fence ++ [lf] =
      (fence ++ Bytes.ofString "text") ++ lf :: (text ++ lf :: (fence ++ [lf])) := by
    have hend : Bytes.ofString "text\n" = Bytes.ofString "text" ++ [lf] := rfl
    rw [hend]
    simp only [List.append_assoc, List.cons_append, List.nil_append]
  show lines (fence ++ Bytes.ofString "text\n" ++ text ++ [lf] ++ fence ++ [lf]) = _
  rw [hblock, lines_append, lines_line hfirst, lines_append, lines_line hmarks]
  rfl

/-- A fence of more marks than any run of them in a text is closed by no line of the text. -/
theorem not_closedBy_of_longestRun {n : Nat} {s line : Bytes} (hn : longestRun 0 s < n)
    (hline : line ∈ lines (Bytes.trimEnd lf s ++ [lf])) : Fence.closedBy ⟨grave, n, "text"⟩ line = false := by
  rw [← Bool.not_eq_true]
  intro hcloses
  have hrun : List.replicate n grave <:+: Bytes.trimEnd lf s ++ [lf] :=
    (Fence.infix_of_closedBy hcloses).trans ((line_of_mem (Bytes.trimEnd lf s ++ [lf])).2 line hline)
  have hle := Nat.le_trans (le_longestRun hrun 0) (longestRun_trimEnd s)
  exact Nat.not_le.2 hn hle

/-- **The block of a message holds the lines of the message**, and the line that closes it is its last one, whatever the
message holds. -/
theorem readCode?_fenced (message : Bytes) :
    let text := Bytes.trimEnd lf (clean message)
    let fence := codeFence (clean message)
    let block := fence ++ "text\n" ++ text ++ "\n" ++ fence ++ "\n"
    fenced message = "\n" ++ block ∧
      readCode? (lines block) = some (⟨grave, fence.length, "text"⟩, lines (text ++ "\n"), [fence]) := by
  intro text fence block
  obtain ⟨n, hfence, hn, hlongest⟩ := codeFence_eq (clean message)
  have hmarks : fence = List.replicate n grave := hfence
  have hsize : fence.length = n := by rw [hmarks, List.length_replicate]
  have hlines : lines block = (fence ++ Bytes.ofString "text") :: (lines (text ++ [lf]) ++ fence :: []) :=
    lines_block (fun b hb => List.eq_of_mem_replicate (hmarks ▸ hb)) text
  have hopen : readFence? (fence ++ Bytes.ofString "text") = some ⟨grave, n, "text"⟩ := by
    rw [hmarks]
    exact readFence?_text hn
  have hcontent : ∀ line ∈ lines (text ++ [lf]), Fence.closedBy ⟨grave, n, "text"⟩ line = false :=
    fun line hline => not_closedBy_of_longestRun hlongest hline
  have hlast : Fence.closedBy ⟨grave, n, "text"⟩ fence = true := by
    have hmark : grave ≠ space := by decide
    rw [hmarks]
    exact Fence.closedBy_marks (f := ⟨grave, n, "text"⟩) hmark
  refine ⟨?_, ?_⟩
  · show fenced message = Bytes.ofString "\n" ++ block
    simp only [fenced, block, fence, text, List.append_assoc]
  · rw [hlines, readCode?_of_closedBy hopen hcontent hlast, hsize]
    rfl

end Spotlight.Report
