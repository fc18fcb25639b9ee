import Spotlight.Proofs.Activation.Basic

/-!
# An activation takes one group out of the comment

The scanner is run over the old text, over the body of the disabled region on its own and over the new
text. In the new text it shows what it showed in front of the region, the code bytes of the group, the
line end behind the group, and what it showed behind the end of the old comment. Nothing else of the
region shows: not the marker, and not the groups that stay disabled.

* `Scan.InCode` — the scanner arrives at an offset outside every string and comment;
* `Activation.blockPlace`, `Activation.commentPlace`, `Activation.closedPlace` — where the parts of the
  new text stand;
* `Activation.Uncommented` — the code bytes of the new text;
* `Activation.uncommented_of_run` — they are these, for every group whose end is found by counting
  braces.
-/

namespace Spotlight

open Bytes

namespace Scan

/-- Does the scanner arrive at the offset outside every string and comment? A substitution counts as a
part of the template around it. -/
def InCode (src : Bytes) (i : Nat) : Prop :=
  (stateAt src i).mode = .code ∧ (stateAt src i).outer = []

/-- A code byte in another place, at another depth. -/
def Visit.move (i j : Nat) (d : Int) (v : Visit) : Visit := ⟨v.offset - i + j, v.byte, v.depth + d⟩

/-- In code the scanner is as at the start, but for the depth. -/
theorem InCode.stateAt_eq {src : Bytes} {i : Nat} (h : InCode src i) :
    stateAt src i = State.start.raise (stateAt src i).depth := by
  obtain ⟨hmode, houter⟩ := h
  generalize stateAt src i = s at *
  obtain ⟨mode, depth, outer⟩ := s
  subst hmode houter
  simp [State.raise, State.start]

/-- White space behind a text does not end a comment. -/
theorem not_infix_append_blank {x w : Bytes} (hx : ¬ [star, slash] <:+: x) (hw : w.all isBlank = true) :
    ¬ [star, slash] <:+: x ++ w := by
  rintro ⟨p, q, hpq⟩
  rcases List.append_eq_append_iff.1 hpq with ⟨t, hxt, -⟩ | ⟨t, hpt, hwt⟩
  · exact hx ⟨p, t, hxt.symm⟩
  · rcases List.eq_nil_or_concat t with rfl | ⟨t', c, rfl⟩
    · rw [List.append_nil] at hpt
      exact hx ⟨p, [], by rw [hpt, List.append_nil]⟩
    · -- the slash would stand in the white space
      have hlast : (p ++ [star, slash]).getLast? = (x ++ t'.concat c).getLast? := by rw [hpt]
      obtain rfl : slash = c := by simpa using hlast
      have hblank := List.all_eq_true.1 hw slash (by rw [hwt]; simp)
      exact absurd hblank (by decide)

/-- Another end of a text, with the same first byte, changes nothing in front of it. -/
theorem visits_replace (front : Bytes) {x y : Bytes} (h : y.head? = x.head?) :
    visits (front ++ y) 0 = (visits (front ++ x) 0).filter (fun v => v.offset < front.length) ++
      visitsFrom front.length (stateAt (front ++ x) front.length) y := by
  have hfilter := filter_lt 0 State.start front x
  rw [Nat.zero_add] at hfilter
  rw [visits, visits, List.drop_zero, List.drop_zero, hfilter, stateAt_append, visitsFrom_append, h,
    Nat.zero_add]

/-- A comment shows no byte, and behind it the scanner goes on as in front of it. -/
theorem filter_blockComment {front x y : Bytes}
    (hcode : InCode (front ++ slash :: star :: (x ++ star :: slash :: y)) front.length)
    (hx : ¬ [star, slash] <:+: x) :
    (visits (front ++ slash :: star :: (x ++ star :: slash :: y)) 0).filter
        (fun v => front.length + x.length + 4 ≤ v.offset) =
      visitsFrom (front.length + x.length + 4)
        (stateAt (front ++ slash :: star :: (x ++ star :: slash :: y)) front.length) y := by
  have hmode := hcode.1
  rw [stateAt_append] at hmode ⊢
  rw [visits, List.drop_zero, visitsFrom_append, Nat.zero_add, visitsFrom_blockComment hmode hx,
    List.filter_append]
  have hfront : (visitsBefore (slash :: star :: (x ++ star :: slash :: y)).head? 0 State.start front).filter
      (fun v => front.length + x.length + 4 ≤ v.offset) = [] := by
    apply List.filter_eq_nil_iff.2
    intro v hv
    have := (offset_of_mem hv).2
    simp only [decide_eq_true_eq]
    omega
  rw [hfront, List.nil_append]
  apply List.filter_eq_self.2
  intro v hv
  rw [visitsFrom_eq] at hv
  exact decide_eq_true (offset_of_mem hv).1

/-- A part of a text at whose ends the scanner is as at the start, and which ends in a byte that looks
at nothing: its code bytes are the same in every place. -/
theorem filter_block {front block back : Bytes}
    (hfront : stateAt (front ++ (block ++ back)) front.length = State.start)
    (hend : stateAt (front ++ (block ++ back)) (front.length + block.length) = State.start)
    (hlast : ∀ b ∈ block.getLast?, looksAhead b = false) (next : Option UInt8) :
    (visits (front ++ (block ++ back)) 0).filter
        (fun v => front.length ≤ v.offset ∧ v.offset < front.length + block.length) =
      visitsBefore next front.length State.start block ∧
    State.start.run block next = State.start := by
  have hrun : State.start.run block back.head? = State.start := by
    rw [stateAt_add, hfront, List.drop_left, List.take_left, List.drop_left] at hend
    exact hend
  have hbetween := filter_between 0 State.start front block back
  rw [stateAt_append] at hfront
  rw [hfront] at hbetween
  simp only [Nat.zero_add] at hbetween
  rw [visitsBefore_next hlast _ _ next back.head?, State.run_next hlast _ next back.head?]
  exact ⟨hbetween, hrun⟩

end Scan

/-! ### The group -/

/-- The group in its body: the scanner is as at the start in front of its header and behind its call. -/
theorem Group.Layout.visits_block {body : Bytes} {o : Options} {g : Group} (m : Group.Layout body o g)
    {hd : Group.Header} {brace : Nat} {block : Bytes} (hblock : block = m.keyword ++ lparen :: m.rest)
    (hmem : hd ∈ Group.topLevel o.keyword (.exactly o.name) body)
    (hstart : m.front.length + m.gap.length = hd.start)
    (hdepth : ∃ v ∈ Scan.visits body 0, v.offset = hd.stop - 1 ∧ v.depth = 0)
    (hbrace : Scan.matchBrace? body (hd.stop - 1) = some brace)
    (hclose : Scan.closeCall? body brace = some g.stop) (next : Option UInt8) :
    (Scan.visits body 0).filter
        (fun v => g.stop - block.length ≤ v.offset ∧ v.offset < g.stop) =
      Scan.visitsBefore next (g.stop - block.length) Scan.State.start block ∧
    Scan.State.start.run block next = Scan.State.start := by
  have hraw : g.raw = m.gap ++ block := by rw [hblock]; exact m.raw_eq
  have hbody : body = (m.front ++ m.gap) ++ (block ++ m.back) := by
    rw [List.append_assoc, ← List.append_assoc m.gap, ← hraw]
    exact m.body_eq
  have hstop : g.stop = (m.front ++ m.gap).length + block.length := by
    rw [Group.stop, m.start_eq, hraw, List.length_append, List.length_append]
    omega
  have hfrom : g.stop - block.length = (m.front ++ m.gap).length := by omega
  rw [← List.length_append] at hstart
  have hzero : Scan.stateAt body 0 = Scan.State.start := rfl
  obtain ⟨-, v, hv, hoff, hv0⟩ := Group.of_mem_topLevel hmem
  have hhead : Scan.stateAt body (m.front ++ m.gap).length = Scan.State.start := by
    rw [hstart, ← hoff, (Scan.stateAt_of_mem hzero hv).2.1, hv0]
    rfl
  obtain ⟨w, hw, hwoff, hw0⟩ := hdepth
  have hopen : Scan.stateAt body (hd.stop - 1) = Scan.State.start := by
    rw [← hwoff, (Scan.stateAt_of_mem hzero hw).2.1, hw0]
    rfl
  have hend : Scan.stateAt body g.stop = Scan.State.start :=
    Scan.stateAt_closeCall? (Scan.stateAt_matchBrace? hopen hbrace) hclose
  -- the last byte ends a call
  have hlast : ∀ b ∈ block.getLast?, Scan.looksAhead b = false := by
    intro b hb
    obtain ⟨c, hc, hcall⟩ := Scan.closeCall?_last hclose
    have hpos : 0 < block.length := by
      rw [hblock, List.length_append, List.length_cons]
      omega
    have hindex : g.stop - 1 = (m.front ++ m.gap).length + (block.length - 1) := by omega
    rw [hindex, (congrArg (·[(m.front ++ m.gap).length + (block.length - 1)]?) hbody :),
      List.getElem?_append_right (Nat.le_add_right _ _), Nat.add_sub_cancel_left,
      List.getElem?_append_left (by omega), ← List.getLast?_eq_getElem?] at hc
    obtain rfl : c = b := Option.some.inj (hc.symm.trans hb)
    simp only [Scan.isCallEnd, Bool.or_eq_true, beq_iff_eq] at hcall
    rcases hcall with rfl | rfl <;> rfl
  have hkey := @Scan.filter_block (m.front ++ m.gap) block m.back
  rw [← hbody, ← hstop] at hkey
  rw [hfrom]
  exact hkey hhead hend hlast next

/-! ### The new text -/

/-- The white space in front of the close is all of it up to the end of the comment. -/
theorem Region.Layout.takeWhile_closing {src : Bytes} {o : Options} {r : Region}
    (l : Region.Layout src o r) : r.closing.takeWhile isBlank = l.gap := by
  rw [l.closing_eq, List.takeWhile_append_of_pos (List.all_eq_true.1 l.gap_blank),
    List.takeWhile_cons_of_neg (by decide), List.append_nil]

namespace Activation

/-- The marker as it stands in the new text. -/
def note (a : Activation) : Bytes := Blank.trimEnd (enableMarker a.region.opening)

/-- The group as it stands in the new text. -/
def block (a : Activation) : Bytes := Blank.trimStart a.group.raw

/-- The offset of the group in the new text. -/
def blockPlace (a : Activation) : Nat :=
  a.region.start + a.note.length + (lineEnd a.region).length

/-- The offset of the fresh comment in the new text. -/
def commentPlace (a : Activation) : Nat :=
  a.blockPlace + a.block.length + (lineEnd a.region).length

/-- The offset just past the end of the comment in the old text. -/
def closed (a : Activation) : Nat :=
  a.region.bodyOffset + a.region.body.length + (a.region.closing.takeWhile isBlank).length + 2

/-- The offset just past the end of the comment in the new text. -/
def closedPlace (a : Activation) : Nat :=
  a.commentPlace + 2 + (Group.remainder a.region.body a.group).length +
    (a.region.closing.takeWhile isBlank).length + 2

/-- What the scanner shows of the new text: the code bytes in front of the region as before, those of
the group, moved to its new place and to the depth in force there, the line end behind it, and the code
bytes behind the end of the old comment, moved, at the depths they had. No byte between the start of the
marker and the group shows, and none between the start of the fresh comment and its end, where the other
groups are. -/
structure Uncommented (src : Bytes) (a : Activation) : Prop where
  closing_eq : ∃ anchor, a.region.closing = a.region.closing.takeWhile isBlank ++ ("*/" ++ anchor)
  visits_eq : Scan.visits a.text 0 =
    (Scan.visits src 0).filter (fun v => v.offset < a.region.start) ++
    (((Scan.visits a.region.body 0).filter
        (fun v => a.group.stop - a.block.length ≤ v.offset ∧ v.offset < a.group.stop)).map
      (Scan.Visit.move (a.group.stop - a.block.length) a.blockPlace
        (Scan.stateAt src a.region.start).depth) ++
    ((lineEnd a.region).mapIdx
      (fun k b => ⟨a.blockPlace + a.block.length + k, b, (Scan.stateAt src a.region.start).depth⟩) ++
    ((Scan.visits src 0).filter (fun v => a.closed ≤ v.offset)).map
      (Scan.Visit.move a.closed a.closedPlace 0)))
  hidden : ∀ v ∈ Scan.visits a.text 0,
    ¬ (a.region.start ≤ v.offset ∧ v.offset < a.blockPlace) ∧
    ¬ (a.commentPlace ≤ v.offset ∧ v.offset < a.closedPlace)

/-- No other byte of the new region shows. -/
theorem hidden_of_visits {a : Activation} {before inside behind : List Scan.Visit} {d : Int}
    (h : Scan.visits a.text 0 = before ++ (inside.map
        (Scan.Visit.move (a.group.stop - a.block.length) a.blockPlace d) ++
      ((lineEnd a.region).mapIdx (fun k b => ⟨a.blockPlace + a.block.length + k, b, d⟩) ++
        behind.map (Scan.Visit.move a.closed a.closedPlace 0))))
    (hbefore : ∀ v ∈ before, v.offset < a.region.start)
    (hinside : ∀ v ∈ inside, a.group.stop - a.block.length ≤ v.offset ∧ v.offset < a.group.stop) :
    ∀ v ∈ Scan.visits a.text 0, ¬ (a.region.start ≤ v.offset ∧ v.offset < a.blockPlace) ∧
      ¬ (a.commentPlace ≤ v.offset ∧ v.offset < a.closedPlace) := by
  have hplace : a.commentPlace = a.blockPlace + a.block.length + (lineEnd a.region).length := rfl
  have hend : a.commentPlace ≤ a.closedPlace := by rw [closedPlace]; omega
  have hstart : a.region.start ≤ a.blockPlace := by rw [blockPlace]; omega
  intro v hv
  simp only [h, List.mem_append, List.mem_map, List.mem_mapIdx] at hv
  rcases hv with hv | ⟨w, hw, rfl⟩ | ⟨k, hk, rfl⟩ | ⟨w, -, rfl⟩
  · have := hbefore v hv
    omega
  · have := hinside w hw
    simp only [Scan.Visit.move]
    omega
  · simp only
    omega
  · simp only [Scan.Visit.move]
    omega

/-- The marker is a line comment in the new text. -/
theorem exists_note {src : Bytes} {o : Options} {a : Activation} (l : Region.Layout src o a.region)
    (hcheck : o.check = .ok ()) (hmarker : lf ∉ o.marker) :
    ∃ x, a.note = slash :: slash :: x ∧ lf ∉ x := by
  obtain ⟨text, htext⟩ := l.exists_marker hcheck
  have hblank : ∀ c ∈ l.blanks, c < 0x80 ∧ Blank.isSpace c.toNat = true := fun c hc =>
    Scan.blank_of_isSpace (Group.isSpace_of_isBlank (List.all_eq_true.1 l.blanks_blank c hc))
  refine ⟨Blank.trimEnd text, ?_, ?_⟩
  · have hslash : slash < 0x80 ∧ Blank.isSpace slash.toNat = false := by decide
    rw [note, l.opening_eq, htext, List.cons_append, List.cons_append, enableMarker_eq,
      Blank.trimEnd_cons_of_ascii hslash.1 hslash.2, Blank.trimEnd_cons_of_ascii hslash.1 hslash.2,
      Blank.trimEnd_append hblank]
  · intro h
    obtain ⟨m, hm, hsub⟩ := Literal.exists_of_strip? l.marker_match
    have hmark : l.marker = m := List.append_cancel_right hm
    apply hmarker
    apply hsub lf _ (by decide)
    rw [← hmark, htext]
    exact List.mem_cons_of_mem _ (List.mem_cons_of_mem _ (Blank.mem_of_mem_trimEnd h))

/-- The line end is one byte or none in front of a line feed. -/
theorem exists_lineEnd (r : Region) : ∃ x, lineEnd r = x ++ [lf] ∧ lf ∉ x ∧
    (lineEnd r).all Scan.isInert = true := by
  rcases lineEnd_eq r with h | h
  · exact ⟨[], h, by simp, by rw [h]; rfl⟩
  · exact ⟨[cr], h, by decide, by rw [h]; rfl⟩

/-- The line of the marker shows nothing. -/
theorem visitsFrom_note {a : Activation} {s : Scan.State} {x : Bytes} (hs : s.mode = .code)
    (hnote : a.note = slash :: slash :: x) (hx : lf ∉ x) (i : Nat) (y : Bytes) :
    Scan.visitsFrom i s (a.note ++ (lineEnd a.region ++ y)) =
      Scan.visitsFrom (i + a.note.length + (lineEnd a.region).length) s y := by
  obtain ⟨e, he, hlf, -⟩ := exists_lineEnd a.region
  have htext : a.note ++ (lineEnd a.region ++ y) = slash :: slash :: ((x ++ e) ++ lf :: y) := by
    rw [hnote, he]
    simp only [List.append_assoc, List.cons_append, List.nil_append]
  have hline : lf ∉ x ++ e := fun h => (List.mem_append.1 h).elim hx hlf
  have hlen : i + (x ++ e).length + 3 = i + a.note.length + (lineEnd a.region).length := by
    rw [hnote, he]
    simp only [List.length_append, List.length_cons, List.length_nil]
    omega
  rw [htext, Scan.visitsFrom_lineComment hs hline, hlen]

/-- The region of the new text shows the group and the line end behind it. -/
theorem visitsFrom_region {a : Activation} {d : Int} {x : Bytes} (hnote : a.note = slash :: slash :: x)
    (hx : lf ∉ x) {gap : Bytes} (hgap : gap = a.region.closing.takeWhile isBlank)
    (hrest : ¬ [star, slash] <:+: Group.remainder a.region.body a.group ++ gap)
    (hrun : ∀ next, Scan.State.start.run a.block next = Scan.State.start) (j : Nat) (y : Bytes) :
    Scan.visitsFrom a.region.start (Scan.State.start.raise d)
        (a.note ++ (lineEnd a.region ++ (a.block ++ (lineEnd a.region ++
          slash :: star :: ((Group.remainder a.region.body a.group ++ gap) ++ star :: slash :: y))))) =
      (Scan.visitsBefore (lineEnd a.region).head? j Scan.State.start a.block).map
        (Scan.Visit.move j a.blockPlace d) ++
      ((lineEnd a.region).mapIdx (fun k b => ⟨a.blockPlace + a.block.length + k, b, d⟩) ++
      Scan.visitsFrom a.closedPlace (Scan.State.start.raise d) y) := by
  obtain ⟨e, he, -, hinert⟩ := exists_lineEnd a.region
  have hcode : (Scan.State.start.raise d).mode = .code := rfl
  have hdepth : (Scan.State.start.raise d).depth = d := Int.zero_add d
  have hmove : (Scan.visitsBefore (lineEnd a.region).head? j Scan.State.start a.block).map
      (Scan.Visit.move j a.blockPlace d) =
      Scan.visitsBefore (lineEnd a.region).head? a.blockPlace (Scan.State.start.raise d) a.block := by
    rw [Scan.visitsBefore_raise, Scan.visitsBefore_move _ j a.blockPlace, List.map_map]
    rfl
  have hhead : ∀ z : Bytes, (lineEnd a.region ++ z).head? = (lineEnd a.region).head? := by
    intro z
    rw [he]
    cases e <;> rfl
  have hlen : a.blockPlace + a.block.length + (lineEnd a.region).length +
      (Group.remainder a.region.body a.group ++ gap).length + 4 = a.closedPlace := by
    rw [closedPlace, commentPlace, List.length_append, hgap]
    omega
  rw [visitsFrom_note hcode hnote hx, ← blockPlace, Scan.visitsFrom_append, hhead, Scan.State.run_raise,
    hrun, Scan.visitsFrom_inert hcode rfl hinert, Scan.visitsFrom_blockComment hcode hrest, hdepth,
    hlen, hmove]

/-- **An activation takes one group out of the comment, and changes nothing else.** The text of the
marker stays in its line, the comment ends where it did, the scanner arrives at the region in code, and
the brace of the header is a code byte of the body at depth zero. -/
theorem uncommented_of_run {src : Bytes} {o : Options} {a : Activation} {h : Group.Header}
    (hrun : run src o = .ok a) (hscan : o.isHeuristic = false) (hmarker : lf ∉ o.marker)
    (hopen : ¬ Bytes.ofString "*/" <:+: a.region.opening ++ a.region.body)
    (hrest : ¬ Bytes.ofString "*/" <:+: Group.remainder a.region.body a.group)
    (hcode : Scan.InCode src a.region.start)
    (hhead : h ∈ Group.topLevel o.keyword (.exactly o.name) a.region.body)
    (hbrace : ∃ v ∈ Scan.visits a.region.body 0, v.offset = h.stop - 1 ∧ v.depth = 0) :
    Uncommented src a := by
  obtain ⟨hcheck, hlocate, hextract, htext⟩ := exists_of_run hrun
  obtain ⟨l⟩ := Region.layout_of_locate hlocate
  obtain ⟨m, h', brace, htop, hstart, hmatch, hclose⟩ :=
    Group.layout_of_extractBalanced (Group.extractBalanced_of_extract hscan hextract)
  obtain rfl : h = h' := by
    rw [htop] at hhead
    exact List.mem_singleton.1 hhead
  obtain ⟨x, hnote, hx⟩ := exists_note l hcheck hmarker
  have hblock : a.block = m.keyword ++ lparen :: m.rest := m.trimStart_raw l.keyword_word
  have hvisits := m.visits_block hblock hhead hstart hbrace hmatch hclose
  have hgap : l.gap = a.region.closing.takeWhile isBlank := l.takeWhile_closing.symm
  obtain ⟨text, hopening⟩ : ∃ text, a.region.opening = slash :: star :: text := by
    obtain ⟨t, ht⟩ := l.exists_marker hcheck
    exact ⟨t ++ l.blanks, by rw [l.opening_eq, ht, List.cons_append, List.cons_append]⟩
  -- the old text and the new one, with the comments in sight
  let old := text ++ a.region.body ++ l.gap
  have hold : ¬ [star, slash] <:+: old := by
    apply Scan.not_infix_append_blank _ l.gap_blank
    intro hinfix
    apply hopen
    rw [hopening]
    exact hinfix.trans ⟨[slash, star], [], by simp⟩
  have hnew : ¬ [star, slash] <:+: Group.remainder a.region.body a.group ++ l.gap :=
    Scan.not_infix_append_blank hrest l.gap_blank
  have hsrc : src = l.front ++ slash :: star :: (old ++ star :: slash :: (l.anchor ++ l.back)) := by
    refine l.src_eq.trans ?_
    rw [hopening, l.closing_eq]
    simp only [old, List.append_assoc, List.cons_append]
  have htext' : a.text = l.front ++ (a.note ++ (lineEnd a.region ++ (a.block ++ (lineEnd a.region ++
      slash :: star :: ((Group.remainder a.region.body a.group ++ l.gap) ++
        star :: slash :: (l.anchor ++ l.back)))))) := by
    rw [htext, text_eq l m, m.remainder_eq, l.closing_eq]
    simp only [note, block, List.append_assoc, List.cons_append]
  have hstart' : l.front.length = a.region.start := l.start_eq.symm
  have hclosed : l.front.length + old.length + 4 = a.closed := by
    rw [closed, Region.bodyOffset, hopening, ← hgap, hstart']
    simp only [old, List.length_append, List.length_cons]
    omega
  have hfront := Scan.visits_replace l.front (y := a.note ++ (lineEnd a.region ++ (a.block ++
    (lineEnd a.region ++ slash :: star :: ((Group.remainder a.region.body a.group ++ l.gap) ++
      star :: slash :: (l.anchor ++ l.back))))))
    (x := slash :: star :: (old ++ star :: slash :: (l.anchor ++ l.back))) (by rw [hnote]; rfl)
  have hback := @Scan.filter_blockComment l.front old (l.anchor ++ l.back)
  rw [← hsrc, ← htext', hstart'] at hfront
  rw [← hsrc, hclosed, hstart'] at hback
  have hregion := visitsFrom_region (d := (Scan.stateAt src a.region.start).depth) hnote hx hgap hnew
    (fun next => (hvisits next).2) (a.group.stop - a.block.length) (l.anchor ++ l.back)
  have hmove : Scan.visitsFrom a.closedPlace (Scan.stateAt src a.region.start) (l.anchor ++ l.back) =
      ((Scan.visits src 0).filter (fun v => a.closed ≤ v.offset)).map
        (Scan.Visit.move a.closed a.closedPlace 0) := by
    rw [hback hcode hold, Scan.visitsFrom_move a.closed a.closedPlace]
    apply List.map_congr_left
    intro v _
    rw [Scan.Visit.move, Int.add_zero]
  rw [← hcode.stateAt_eq, ← (hvisits _).1, hmove] at hregion
  rw [hregion] at hfront
  refine ⟨⟨l.anchor, by rw [← hgap]; exact l.closing_eq⟩, hfront, hidden_of_visits hfront ?_ ?_⟩
  · intro v hv
    simpa using (List.mem_filter.1 hv).2
  · intro v hv
    simpa using (List.mem_filter.1 hv).2

/-- Within a call of its own, a group with a nested body is taken out of the comment. -/
theorem uncommented_of_run_nested :
    Uncommented "f(()=>\x7b\n/*m \nd('b',()=>\x7b\x7d);\n\n d('a',()=>\x7bx('\x7b')\x7d);\n*/\nd('z',()=>\x7b\x7d)\x7d);\n"
      ⟨"f(()=>\x7b\n//m\nd('a',()=>\x7bx('\x7b')\x7d);\n/*d('b',()=>\x7b\x7d);\n*/\nd('z',()=>\x7b\x7d)\x7d);\n",
        ⟨"/*m \n", "d('b',()=>\x7b\x7d);\n\n d('a',()=>\x7bx('\x7b')\x7d);", "\n*/\nd('z", 8⟩,
        ⟨"a", "\n\n d('a',()=>\x7bx('\x7b')\x7d);", 14⟩, ["b"]⟩ :=
  uncommented_of_run (o := { marker := "/*m", anchor := "z", keyword := "d", name := "a" })
    (h := ⟨17, 28, "a"⟩) rfl rfl (by decide) (by decide) (by decide) ⟨rfl, rfl⟩ (by decide)
    ⟨⟨27, lbrace, 0⟩, by decide, rfl, rfl⟩

end Activation

end Spotlight
