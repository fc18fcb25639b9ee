import Spotlight.Editor
import Spotlight.Proofs.Text.Pieces

/-!
# What a batch of calls keeps of a content

The lines of a content do not tell whether the last of them has an end: an empty content and a single line feed both
are one empty line. That is left to a setting. Lines and setting together hold every byte of the content.

* `Editor.sentLines`, `Editor.contentOf` — the lines that are sent by some calls, and the content that they stand for;
* `Editor.joinWith_lines` — the lines of a content and the end of the last one give it back;
* `Editor.content_of_batch` — so do the calls that write it, and different contents are written by different calls.
-/

namespace Spotlight.Editor

open Bytes

/-! ### Reading calls -/

/-- The lines that are sent by some calls. -/
def sentLines (calls : List Call) : List Bytes :=
  calls.flatMap fun
    | .command _ => []
    | .setLines ls => ls

/-- Is the last line to get an end? -/
def ChoosesEnd (calls : List Call) : Prop := Call.command "setlocal endofline fixendofline" ∈ calls

instance (calls : List Call) : Decidable (ChoosesEnd calls) := inferInstanceAs (Decidable (_ ∈ calls))

/-- The content that some calls stand for: their lines with line feeds between them, and one more where the last line
is to get an end. -/
def contentOf (calls : List Call) : Bytes :=
  joinWith [lf] (sentLines calls) ++ if ChoosesEnd calls then [lf] else []

theorem sentLines_batch (escaped content : Bytes) : sentLines (batch escaped content) = lines content :=
  List.append_nil (lines content)

/-- The name of the file does not look like a setting. -/
theorem choosesEnd_batch_iff {escaped content : Bytes} :
    ChoosesEnd (batch escaped content) ↔ endsLine content = true := by
  have hedit : ∀ s : Bytes, Bytes.ofString "setlocal endofline fixendofline" ≠ "edit! " ++ s := by
    intro s h
    exact absurd (List.cons.inj h).1 (by decide)
  have hwrite : Bytes.ofString "setlocal endofline fixendofline" ≠ "write" := by decide
  have hother : Bytes.ofString "setlocal endofline fixendofline" ≠ "setlocal noendofline nofixendofline" := by decide
  cases hend : endsLine content <;> simp [ChoosesEnd, batch, hend, hedit, hwrite, hother]

/-! ### The lines of a content -/

theorem lines_ne_nil (content : Bytes) : lines content ≠ [] := List.splitOn_ne_nil lf _

theorem not_mem_of_mem_lines {content line : Bytes} (h : line ∈ lines content) : lf ∉ line :=
  not_mem_of_mem_splitOn h

/-- The lines of a content and the end of the last one give it back. -/
theorem joinWith_lines (content : Bytes) :
    joinWith [lf] (lines content) ++ (if endsLine content then [lf] else []) = content := by
  rw [lines, joinWith, splitOn, List.intercalate_splitOn]
  split
  · rename_i hend
    rw [endsLine, beq_iff_eq, List.getLast?_eq_some_iff] at hend
    obtain ⟨front, rfl⟩ := hend
    rw [List.dropLast_concat]
  · exact List.append_nil content

theorem contentOf_batch (escaped content : Bytes) : contentOf (batch escaped content) = content := by
  simp only [contentOf, sentLines_batch, choosesEnd_batch_iff, joinWith_lines]

/-- **A content is written byte for byte.** The calls that write it send at least one line, and no line feed. With line
feeds between the lines, and one more exactly where the calls choose an end for the last line, they are the content; so
different contents are never written to one file by the same calls. -/
theorem content_of_batch (escaped content : Bytes) :
    sentLines (batch escaped content) = lines content ∧ lines content ≠ [] ∧ (∀ line ∈ lines content, lf ∉ line) ∧
      (joinWith [lf] (lines content) ++ if ChoosesEnd (batch escaped content) then [lf] else []) = content ∧
      Function.Injective (batch escaped) := by
  have hback : Function.LeftInverse contentOf (batch escaped) := contentOf_batch escaped
  refine ⟨sentLines_batch escaped content, lines_ne_nil content, fun _ => not_mem_of_mem_lines, ?_, hback.injective⟩
  simp only [choosesEnd_batch_iff, joinWith_lines]

/-- An empty content and a single line feed have the same lines and are written by different calls. A carriage return
stays in its line, and of two line feeds at the end one goes between lines. -/
theorem content_of_batch_lineEnds :
    lines "" = lines "\n" ∧ batch "t.js" "" ≠ batch "t.js" "\n" ∧
      sentLines (batch "t.js" "a\r\n\n") = [Bytes.ofString "a\r", []] ∧ Bytes.ofString "a\r" ∈ lines "a\r\n\n" ∧
      lf ∉ Bytes.ofString "a\r" ∧ ChoosesEnd (batch "t.js" "a\r\n\n") := by
  obtain ⟨hsent, -, hfree, -, hinj⟩ := content_of_batch "t.js" "a\r\n\n"
  have hmem : Bytes.ofString "a\r" ∈ lines "a\r\n\n" := by decide
  have hlines : lines "a\r\n\n" = [Bytes.ofString "a\r", []] := by decide
  exact ⟨by decide, hinj.ne (by decide), hsent.trans hlines, hmem, hfree _ hmem, by decide⟩

end Spotlight.Editor
