import Spotlight.Proofs.Activation.Basic

/-!
# An activation loses nothing

A successful activation cuts the file into parts and puts them together again, with one group in another
place. All bytes in front of the region and behind it, the other groups and the head of the anchor group
stay as they are and in order. What is left out is white space: at the end of the marker, and before the
header of the group.

* `Activation.Rearranged` — the old and the new text, part by part;
* `Activation.rearranged_of_run` — every successful activation, in both ways to find the end of a group,
  gives the parts in this order.
-/

namespace Spotlight.Activation

open Bytes

/-- The parts of the old and the new text. The file is a front `P`, the opening `O`, the body
`b₁ ++ raw ++ b₂` around the group, the close `C` and a back `S`, exactly at the offsets that the
activation reports, and the new text is made of these parts. The two line ends that come in are the
same; what goes out is white space at the end of the marker and before the header. -/
def Rearranged (src : Bytes) (o : Options) (a : Activation) : Prop :=
  ∃ P O note b₁ raw b₂ C S eol : Bytes,
    src = P ++ O ++ b₁ ++ raw ++ b₂ ++ C ++ S ∧
    a.region.opening = O ∧ o.marker <+: O ∧ O = "/*" ++ note ∧
    a.region.body = b₁ ++ raw ++ b₂ ∧ a.group.raw = raw ∧ a.group.start = b₁.length ∧
    a.region.closing = C ∧ a.region.start = P.length ∧ a.region.stop = src.length - S.length ∧
    (Document.split src a.region).text = src ∧
    (eol = "\n" ∨ eol = "\r\n") ∧
    a.text = P ++ Blank.trimEnd ("//" ++ note) ++ eol ++ Blank.trimStart raw ++ eol ++ "/*" ++ b₁ ++
      b₂ ++ C ++ S ∧
    (∃ w, "//" ++ note = Blank.trimEnd ("//" ++ note) ++ w ∧ Blank.isBlank w = true) ∧
    (∃ w rest, raw = w ++ Blank.trimStart raw ∧ w.all Scan.isSpace = true ∧
      Blank.trimStart raw = o.keyword ++ lparen :: rest)

/-- **An activation rearranges the file and loses nothing.** -/
theorem rearranged_of_run {src : Bytes} {o : Options} {a : Activation} (h : run src o = .ok a)
    (hmarker : Literal.IsPlain o.marker) (hkeyword : Literal.IsPlain o.keyword) :
    Rearranged src o a := by
  obtain ⟨hcheck, hlocate, hextract, htext⟩ := exists_of_run h
  obtain ⟨l⟩ := Region.layout_of_locate hlocate
  obtain ⟨m⟩ := Group.layout_of_extract hextract
  obtain ⟨note, hnote⟩ := l.exists_marker hcheck
  have hmark : l.marker = o.marker := Literal.eq_of_strip? hmarker l.marker_match
  have hkey : m.keyword = o.keyword := Literal.eq_of_strip? hkeyword m.keyword_match
  have htrim := m.trimStart_raw l.keyword_word
  have hopening : a.region.opening = slash :: star :: (note ++ l.blanks) := by
    rw [l.opening_eq, hnote, List.cons_append, List.cons_append]
  have hsrc : src = l.front ++ a.region.opening ++ m.front ++ a.group.raw ++ m.back ++
      a.region.closing ++ l.back := by
    simp only [List.append_assoc]
    rw [← List.append_assoc a.group.raw, ← List.append_assoc m.front, ← m.body_eq]
    exact l.src_eq
  have hlen := congrArg List.length hsrc
  have hbody := congrArg List.length m.body_eq
  refine ⟨l.front, a.region.opening, note ++ l.blanks, m.front, a.group.raw, m.back,
    a.region.closing, l.back, lineEnd a.region, hsrc, rfl, ?_, hopening, ?_, rfl, m.start_eq, rfl,
    l.start_eq, ?_, ?_, lineEnd_eq a.region, ?_, ?_, ?_⟩
  · rw [l.opening_eq, hmark]
    exact List.prefix_append _ _
  · rw [List.append_assoc]
    exact m.body_eq
  · rw [Region.stop, Region.text, l.start_eq]
    simp only [List.length_append] at hlen hbody ⊢
    omega
  · rw [Document.text, Document.join, Document.split, l.take_start, l.drop_stop]
    simp only [Region.text, List.append_assoc]
    exact l.src_eq.symm
  · rw [htext, text_eq l m, hopening, enableMarker_eq]
    simp only [List.append_assoc]
    rfl
  · exact Blank.exists_trimEnd _
  · exact ⟨m.gap, m.rest, by rw [htrim, ← m.raw_eq], m.gap_space, by rw [htrim, hkey]⟩

/-- A file with two groups, one of which is activated: the marker has white space at its end, and the
group starts on a line of its own. -/
theorem rearranged_of_run_two_groups :
    Rearranged "x;\n/*m \nd('b',()=>\x7b\x7d);\n\n d('a',()=>\x7b\x7d);\n*/\nd('z',()=>\x7b\x7d);\n"
      { marker := "/*m", anchor := "z", keyword := "d", name := "a" }
      ⟨"x;\n//m\nd('a',()=>\x7b\x7d);\n/*d('b',()=>\x7b\x7d);\n*/\nd('z',()=>\x7b\x7d);\n",
        ⟨"/*m \n", "d('b',()=>\x7b\x7d);\n\n d('a',()=>\x7b\x7d);", "\n*/\nd('z", 3⟩,
        ⟨"a", "\n\n d('a',()=>\x7b\x7d);", 14⟩, ["b"]⟩ :=
  rearranged_of_run rfl (by decide) (by decide)

end Spotlight.Activation
