import Spotlight.Patch.Unified
import Spotlight.Proofs.Text.Pieces
import Spotlight.Proofs.Text.Decimal

/-!
# Reading a diff

A diff is read line by line. The two lines at its head name the file; the head line of a hunk tells where the
hunk starts in both texts, and how many of their lines it goes over; and so many lines belong to it.

* `Patch.readRange?`, `Patch.readHead?`, `Patch.readEdit?` — the parts of a line;
* `Patch.readHunks?` — the hunks in a list of lines;
* `Patch.read?` — the name of the file, and the hunks of a diff;
* `Patch.readHunks?_lines` — hunks are read from their own lines;
* `Patch.read?_unified` — a diff is read as the hunks it was made of.
-/

namespace Spotlight.Patch

open Bytes

/-! ### The reader -/

/-- A number in decimal. -/
def readNat? (s : Bytes) : Option Nat :=
  if s.isEmpty || !s.all isDigit then none else some (digitsValue s)

/-- The number of lines in front of a stretch, and its size. The first line of a stretch has a number above
zero; only an empty stretch is named after the line in front of it. -/
def readRange? (s : Bytes) : Option (Nat × Nat) :=
  match splitOn comma s with
  | [first] => (readNat? first).bind fun n => if n = 0 then none else some (n - 1, 1)
  | [first, size] => (readNat? first).bind fun n => (readNat? size).bind fun k =>
    if k = 0 then some (n, 0) else if n = 0 then none else some (n - 1, k)
  | _ => none

/-- The head line of a hunk: where the hunk starts in the old and in the new text, and its sizes there. -/
def readHead? (line : Bytes) : Option ((Nat × Nat) × (Nat × Nat)) :=
  match splitOn space line with
  | [left, old, new, right] =>
    if left = Bytes.ofString "@@" ∧ right = Bytes.ofString "@@" then
      (Bytes.strip? "-" old).bind fun old => (readRange? old).bind fun old =>
        (Bytes.strip? "+" new).bind fun new => (readRange? new).map fun new => (old, new)
    else none
  | _ => none

/-- A line of a hunk. -/
def readEdit? : Bytes → Option Edit
  | 0x20 :: line => some (.keep line)
  | 0x2d :: line => some (.drop line)
  | 0x2b :: line => some (.add line)
  | _ => none

/-- The hunks in a list of lines, with `m` old and `n` new lines still to come of the hunk before. The edits
that belong to that hunk are given in front. -/
def readHunks? : (m n : Nat) → List Bytes → Option (List Edit × List Hunk)
  | m, n, [] => if m = 0 ∧ n = 0 then some ([], []) else none
  | m, n, line :: more =>
    if m = 0 ∧ n = 0 then
      (readHead? line).bind fun (old, new) => (readHunks? old.2 new.2 more).map fun (es, hs) =>
        ([], ⟨old.1, new.1, es⟩ :: hs)
    else
      (readEdit? line).bind fun e =>
        if (oldLines [e]).length ≤ m ∧ (newLines [e]).length ≤ n then
          (readHunks? (m - (oldLines [e]).length) (n - (newLines [e]).length) more).map fun (es, hs) =>
            (e :: es, hs)
        else none

/-- The lines of a text in which every line has its end. -/
def wholeLines? (s : Bytes) : Option (List Bytes) :=
  match (splitOn lf s).reverse with
  | [] :: ls => some ls.reverse
  | _ => none

/-- The name of the file, which is the same in both lines at the head of a diff, and the hunks. -/
def read? (s : Bytes) : Option (Bytes × List Hunk) :=
  match wholeLines? s with
  | some (first :: second :: more) =>
    (Bytes.strip? "--- a/" first).bind fun path => (Bytes.strip? "+++ b/" second).bind fun path' =>
      if path = path' then (readHunks? 0 0 more).map fun (_, hs) => (path, hs) else none
  | _ => none

/-! ### Lines -/

/-- The lines one after the other, every one with its end. -/
def ended (ls : List Bytes) : Bytes := ls.flatMap fun line => line ++ [lf]

theorem splitOn_ended {ls : List Bytes} (h : ∀ line ∈ ls, lf ∉ line) :
    splitOn lf (ended ls) = ls ++ [[]] := by
  induction ls with
  | nil => rfl
  | cons line ls ih =>
    have hcons : ended (line :: ls) = line ++ lf :: ended ls := by
      rw [ended, List.flatMap_cons, List.append_assoc]
      rfl
    have hrest : List.splitOn lf (ended ls) = ls ++ [[]] := ih fun l hl => h l (List.mem_cons_of_mem line hl)
    rw [hcons, splitOn, List.splitOn_append_cons_self, List.splitOn_eq_singleton (h line List.mem_cons_self), hrest]
    rfl

theorem wholeLines?_ended {ls : List Bytes} (h : ∀ line ∈ ls, lf ∉ line) :
    wholeLines? (ended ls) = some ls := by
  rw [wholeLines?, splitOn_ended h, List.reverse_append, List.reverse_singleton, List.singleton_append]
  show some ls.reverse.reverse = some ls
  rw [List.reverse_reverse]

/-- The lines of a text give it back. -/
theorem joinWith_lines (s : Bytes) : joinWith [lf] (lines s) = s := List.intercalate_splitOn lf

/-! ### The parts of a line -/

theorem readNat?_ofNat (n : Nat) : readNat? (ofNat n) = some n := by
  have hempty : (ofNat n).isEmpty = false := by
    rw [List.isEmpty_eq_false_iff]
    exact ofNat_ne_nil n
  rw [readNat?, hempty, all_isDigit_ofNat, digitsValue_ofNat]
  rfl

theorem not_mem_range {b : UInt8} (hb : isDigit b = false) (hcomma : b ≠ comma) (start size : Nat) :
    b ∉ range start size := by
  have hlit : Bytes.ofString "," = [comma] := rfl
  unfold range
  split
  · exact not_mem_ofNat hb _
  · rw [hlit, List.append_assoc, List.singleton_append, List.mem_append, List.mem_cons, not_or, not_or]
    exact ⟨not_mem_ofNat hb _, hcomma, not_mem_ofNat hb _⟩

/-- A stretch is read as it was written. -/
theorem readRange?_range (start size : Nat) : readRange? (range start size) = some (start, size) := by
  have hcomma : ∀ n, comma ∉ ofNat n := not_mem_ofNat (by decide)
  unfold range
  split
  · rename_i hone
    subst hone
    rw [readRange?, splitOn, List.splitOn_eq_singleton (hcomma _)]
    show ((readNat? (ofNat (start + 1))).bind fun n => if n = 0 then none else some (n - 1, 1)) = _
    rw [readNat?_ofNat]
    rfl
  · have hlit : Bytes.ofString "," = [comma] := rfl
    rw [hlit, List.append_assoc, List.singleton_append, readRange?, splitOn,
      List.splitOn_append_cons_self, List.splitOn_eq_singleton (hcomma _), List.splitOn_eq_singleton (hcomma _)]
    dsimp only [List.singleton_append]
    rw [readNat?_ofNat, readNat?_ofNat]
    by_cases hzero : size = 0
    · subst hzero
      rfl
    · rw [if_neg hzero]
      show (if size = 0 then some (start + 1, 0) else
        if start + 1 = 0 then none else some (start + 1 - 1, size)) = _
      rw [if_neg hzero, if_neg (by omega), Nat.add_sub_cancel]

/-- The head line of a hunk, without its end. -/
def Hunk.head (h : Hunk) : Bytes :=
  "@@ -" ++ range h.oldStart (oldLines h.edits).length ++ " +" ++
    range h.newStart (newLines h.edits).length ++ " @@"

theorem Hunk.not_mem_head {b : UInt8} (hb : isDigit b = false) (hcomma : b ≠ comma)
    (hframe : b ∉ Bytes.ofString "@@ - + @@") (h : Hunk) : b ∉ h.head := by
  have hparts : b ∉ Bytes.ofString "@@ -" ∧ b ∉ Bytes.ofString " +" ∧ b ∉ Bytes.ofString " @@" := by
    refine ⟨fun hmem => hframe ?_, fun hmem => hframe ?_, fun hmem => hframe ?_⟩
    · exact List.mem_append_left (Bytes.ofString " + @@") hmem
    · exact List.mem_append_left (Bytes.ofString " @@") (List.mem_append_right (Bytes.ofString "@@ -") hmem)
    · exact List.mem_append_right (Bytes.ofString "@@ - +") hmem
  simp only [head, List.mem_append, not_or]
  exact ⟨⟨⟨⟨hparts.1, not_mem_range hb hcomma _ _⟩, hparts.2.1⟩, not_mem_range hb hcomma _ _⟩, hparts.2.2⟩

theorem readHead?_head (h : Hunk) : readHead? h.head =
    some ((h.oldStart, (oldLines h.edits).length), (h.newStart, (newLines h.edits).length)) := by
  let old := range h.oldStart (oldLines h.edits).length
  let new := range h.newStart (newLines h.edits).length
  have hspace : ∀ start size, space ∉ range start size := not_mem_range (by decide) (by decide)
  have hsplit : splitOn space h.head =
      [Bytes.ofString "@@", 0x2d :: old, 0x2b :: new, Bytes.ofString "@@"] := by
    have hparts : h.head = Bytes.ofString "@@" ++ space :: ((0x2d :: old) ++ space :: ((0x2b :: new) ++
        space :: Bytes.ofString "@@")) := by
      rw [Hunk.head, List.append_assoc, List.append_assoc, List.append_assoc]
      rfl
    have hold : space ∉ 0x2d :: old := by
      rw [List.mem_cons, not_or]
      exact ⟨by decide, hspace _ _⟩
    have hnew : space ∉ 0x2b :: new := by
      rw [List.mem_cons, not_or]
      exact ⟨by decide, hspace _ _⟩
    rw [hparts, splitOn, List.splitOn_append_cons_self, List.splitOn_append_cons_self,
      List.splitOn_append_cons_self, List.splitOn_eq_singleton hold, List.splitOn_eq_singleton hnew]
    rfl
  have hminus : Bytes.strip? (Bytes.ofString "-") (0x2d :: old) = some old := rfl
  have hplus : Bytes.strip? (Bytes.ofString "+") (0x2b :: new) = some new := rfl
  rw [readHead?, hsplit]
  dsimp only
  rw [if_pos ⟨rfl, rfl⟩, hminus, hplus]
  dsimp only [Option.bind_some]
  rw [readRange?_range, readRange?_range]
  rfl

/-- A line of a hunk, without its end. -/
def Edit.text : Edit → Bytes
  | .keep line => 0x20 :: line
  | .drop line => 0x2d :: line
  | .add line => 0x2b :: line

theorem readEdit?_text (e : Edit) : readEdit? e.text = some e := by
  cases e <;> rfl

theorem Edit.render_eq (e : Edit) : e.render = e.text ++ [lf] := by
  cases e <;> rfl

/-- An edit takes a line of the old text or of the new one. -/
theorem Edit.takes (e : Edit) : 0 < (oldLines [e]).length ∨ 0 < (newLines [e]).length := by
  cases e with
  | keep line => exact Or.inl Nat.zero_lt_one
  | drop line => exact Or.inl Nat.zero_lt_one
  | add line => exact Or.inr Nat.zero_lt_one

/-! ### Hunks -/

theorem length_oldLines_cons (e : Edit) (es : List Edit) :
    (oldLines (e :: es)).length = (oldLines [e]).length + (oldLines es).length := by
  rw [← List.singleton_append, oldLines_append, List.length_append]

theorem length_newLines_cons (e : Edit) (es : List Edit) :
    (newLines (e :: es)).length = (newLines [e]).length + (newLines es).length := by
  rw [← List.singleton_append, newLines_append, List.length_append]

/-- The edits of a hunk are read as long as its sizes say. -/
theorem readHunks?_edits (es : List Edit) (more : List Bytes) :
    readHunks? (oldLines es).length (newLines es).length (es.map Edit.text ++ more) =
      (readHunks? 0 0 more).map fun r => (es ++ r.1, r.2) := by
  induction es with
  | nil =>
    show readHunks? 0 0 more = _
    cases readHunks? 0 0 more <;> rfl
  | cons e es ih =>
    have hold := length_oldLines_cons e es
    have hnew := length_newLines_cons e es
    have htakes := e.takes
    have hgoes : ¬ ((oldLines (e :: es)).length = 0 ∧ (newLines (e :: es)).length = 0) := by omega
    have hfits : (oldLines [e]).length ≤ (oldLines (e :: es)).length ∧
        (newLines [e]).length ≤ (newLines (e :: es)).length := by omega
    have hrestOld : (oldLines (e :: es)).length - (oldLines [e]).length = (oldLines es).length := by omega
    have hrestNew : (newLines (e :: es)).length - (newLines [e]).length = (newLines es).length := by omega
    rw [List.map_cons, List.cons_append, readHunks?, if_neg hgoes, readEdit?_text]
    dsimp only [Option.bind_some]
    rw [if_pos hfits, hrestOld, hrestNew, ih]
    cases readHunks? 0 0 more <;> rfl

/-- The lines of a hunk. -/
def Hunk.lines (h : Hunk) : List Bytes := h.head :: h.edits.map Edit.text

theorem Hunk.render_eq (h : Hunk) : h.render = ended h.lines := by
  have hedits : h.edits.flatMap Edit.render = ended (h.edits.map Edit.text) := by
    rw [ended, List.flatMap_map]
    congr 1
    funext e
    exact e.render_eq
  have hend : Bytes.ofString " @@\n" = Bytes.ofString " @@" ++ [lf] := rfl
  rw [Hunk.render, hedits, hend, Hunk.lines, ended, ended, List.flatMap_cons, Hunk.head]
  simp only [List.append_assoc]

/-- **Hunks are read from their own lines.** -/
theorem readHunks?_lines (hs : List Hunk) : readHunks? 0 0 (hs.flatMap Hunk.lines) = some ([], hs) := by
  induction hs with
  | nil => rfl
  | cons h hs ih =>
    rw [List.flatMap_cons, Hunk.lines, List.cons_append, readHunks?, if_pos ⟨rfl, rfl⟩, readHead?_head]
    dsimp only [Option.bind_some]
    rw [readHunks?_edits, ih]
    show some ([], (⟨h.oldStart, h.newStart, h.edits ++ []⟩ : Hunk) :: hs) = _
    rw [List.append_nil]

/-! ### Diffs -/

theorem Edit.not_mem_text {e : Edit} (h : ∀ line, e.old? = some line ∨ e.new? = some line → lf ∉ line) :
    lf ∉ e.text := by
  cases e with
  | keep line =>
    show lf ∉ 0x20 :: line
    rw [List.mem_cons, not_or]
    exact ⟨by decide, h line (Or.inl rfl)⟩
  | drop line =>
    show lf ∉ 0x2d :: line
    rw [List.mem_cons, not_or]
    exact ⟨by decide, h line (Or.inl rfl)⟩
  | add line =>
    show lf ∉ 0x2b :: line
    rw [List.mem_cons, not_or]
    exact ⟨by decide, h line (Or.inr rfl)⟩

/-- The edits of the hunks are edits of the script. -/
theorem mem_of_mem_hunksFrom {i j : Nat} {pending : List Edit} {marked : List (Edit × Bool)} {h : Hunk}
    (hmem : h ∈ hunksFrom i j pending marked) {e : Edit} (he : e ∈ h.edits) :
    e ∈ pending ∨ e ∈ marked.map Prod.fst := by
  have hclose : ∀ {i j : Nat} {pending : List Edit}, h ∈ Hunk.close i j pending → e ∈ pending := by
    intro i j pending hmem
    cases pending with
    | nil => simp [Hunk.close] at hmem
    | cons f pending =>
      obtain rfl := List.mem_singleton.1 hmem
      exact List.mem_reverse.1 he
  fun_induction hunksFrom i j pending marked with
  | case1 i j pending => exact Or.inl (hclose hmem)
  | case2 i j pending f marked ih =>
    rcases ih hmem with hpending | hmarked
    · rcases List.mem_cons.1 hpending with rfl | hpending
      · exact Or.inr List.mem_cons_self
      · exact Or.inl hpending
    · exact Or.inr (List.mem_cons_of_mem _ hmarked)
  | case3 i j pending f marked ih =>
    rcases List.mem_append.1 hmem with hfirst | hmore
    · exact Or.inl (hclose hfirst)
    · rcases ih hmore with hpending | hmarked
      · simp at hpending
      · exact Or.inr (List.mem_cons_of_mem _ hmarked)

/-- The lines of the hunks between two texts hold no line ends. -/
theorem not_mem_lines (old new : Bytes) : ∀ h ∈ hunks (script (lines old) (lines new)),
    ∀ line ∈ h.lines, lf ∉ line := by
  intro h hh line hline
  rcases List.mem_cons.1 hline with rfl | hline
  · exact h.not_mem_head (by decide) (by decide) (by decide)
  · obtain ⟨e, he, rfl⟩ := List.mem_map.1 hline
    have hscript : e ∈ script (lines old) (lines new) := by
      rcases mem_of_mem_hunksFrom hh he with hnil | hmem
      · simp at hnil
      · obtain ⟨⟨f, mark⟩, hf, rfl⟩ := List.mem_map.1 hmem
        exact (List.of_mem_zip hf).1
    refine Edit.not_mem_text fun l hl => ?_
    rcases hl with hl | hl
    · have hmem : l ∈ oldLines (script (lines old) (lines new)) := List.mem_filterMap.2 ⟨e, hscript, hl⟩
      rw [oldLines_script] at hmem
      exact not_mem_of_mem_splitOn hmem
    · have hmem : l ∈ newLines (script (lines old) (lines new)) := List.mem_filterMap.2 ⟨e, hscript, hl⟩
      rw [newLines_script] at hmem
      exact not_mem_of_mem_splitOn hmem

/-- **A diff is read as the hunks it was made of.** -/
theorem read?_unified {path old new : Bytes} (hpath : lf ∉ path) (hne : old ≠ new) :
    read? (unified path old new) = some (path, hunks (script (lines old) (lines new))) := by
  let hs := hunks (script (lines old) (lines new))
  let first := Bytes.ofString "--- a/" ++ path
  let second := Bytes.ofString "+++ b/" ++ path
  have htext : unified path old new = ended (first :: second :: hs.flatMap Hunk.lines) := by
    have hhunks : hs.flatMap Hunk.render = ended (hs.flatMap Hunk.lines) := by
      rw [ended, List.flatMap_assoc]
      congr 1
      funext h
      exact h.render_eq
    have hline : Bytes.ofString "\n+++ b/" = lf :: Bytes.ofString "+++ b/" := rfl
    have hend : Bytes.ofString "\n" = [lf] := rfl
    show (if old = new then [] else _) = _
    rw [if_neg hne, hhunks, hline, hend]
    simp only [ended, List.flatMap_cons, List.append_assoc, List.cons_append, List.nil_append, first, second]
  have hlines : ∀ line ∈ first :: second :: hs.flatMap Hunk.lines, lf ∉ line := by
    intro line hline
    rcases List.mem_cons.1 hline with rfl | hline
    · rw [List.mem_append, not_or]
      exact ⟨by decide, hpath⟩
    rcases List.mem_cons.1 hline with rfl | hline
    · rw [List.mem_append, not_or]
      exact ⟨by decide, hpath⟩
    obtain ⟨h, hh, hline⟩ := List.mem_flatMap.1 hline
    exact not_mem_lines old new h hh line hline
  rw [read?, htext, wholeLines?_ended hlines]
  dsimp only
  rw [Bytes.strip?_append, Bytes.strip?_append]
  dsimp only [Option.bind_some]
  rw [if_pos rfl, readHunks?_lines]
  rfl

end Spotlight.Patch
