import Mathlib.Data.List.Basic
import Spotlight.Proofs.Group.Layout
import Spotlight.Proofs.Group.Parts

/-!
# Cutting a group out of a body

The scanner goes over the body without the group as it goes over the body: it shows the same bytes of the front, and
behind the cut the same bytes as behind the group. The last byte of the front is scanned with another byte behind it;
that matters only where the two open a comment.

* `Scan.State.step_next_of_code` — a byte that ends in code is scanned the same whatever follows, unless it opens a
  comment;
* `Scan.visits_cut` — a part of a text at whose ends the scanner is in the same code state can be cut out;
* `Group.stateAt_ends` — the scanner is as at the start in front of a group and behind it;
* `Group.visits_remainder` — a group can be cut out of its body.
-/

namespace Spotlight

open Bytes

namespace Scan

/-! ### The byte behind a part that ends in code -/

/-- Is the state one of the outermost code level? -/
def State.IsCode (s : State) : Prop := s.mode = .code ∧ s.outer = []

/-- Can the byte behind a slash open no comment together with it? -/
def OpensNothing (next : Option UInt8) : Prop := next ≠ some slash ∧ next ≠ some star

theorem OpensNothing.opensComment {next : Option UInt8} (h : OpensNothing next) (b : UInt8) :
    opensComment b next = false := by
  rw [Scan.opensComment, beq_false_of_ne h.1, beq_false_of_ne h.2, Bool.or_false, Bool.and_false]

section

variable {s : State} {b : UInt8} {next next' : Option UInt8}

/-- Code that opens no comment is scanned the same whatever follows. -/
theorem State.stepCode_next (h : opensComment b next = false) (h' : opensComment b next' = false) :
    s.stepCode b next' = s.stepCode b next := by
  rw [Scan.opensComment, Bool.and_or_distrib_left, Bool.or_eq_false_iff] at h h'
  simp only [stepCode, h, h']

/-- A pair that opens a comment does not end in code. -/
theorem opensComment_of_isCode (hs : s.mode = .code) (h : (s.step b next).IsCode) : opensComment b next = false := by
  cases hopen : opensComment b next with
  | false => rfl
  | true =>
    have hmode := h.1
    simp only [Scan.opensComment, Bool.and_eq_true, Bool.or_eq_true, beq_iff_eq] at hopen
    rw [State.step, hs] at hmode
    obtain ⟨rfl, rfl | rfl⟩ := hopen <;> cases hmode

/-- A byte that ends in code is scanned the same whatever follows, unless it opens a comment with that. -/
theorem State.step_next_of_code (h : (s.step b next).IsCode) (hnext : OpensNothing next') :
    s.step b next' = s.step b next := by
  cases hs : s.mode with
  | code =>
    have hopen := opensComment_of_isCode hs h
    simp only [step, hs]
    exact stepCode_next hopen (hnext.opensComment b)
  | block =>
    -- a block comment does not end before the second byte of its end
    have hmode := h.1
    simp only [step, hs] at hmode
    split at hmode
    · cases hmode
    · rw [hs] at hmode
      cases hmode
  | string q =>
    -- a string ends whatever follows, and a substitution is another code level
    obtain ⟨hmode, houter⟩ := h
    simp only [step, hs, stepString] at hmode houter ⊢
    grind
  | line | opening | closing | escape q => simp only [step, hs]

theorem State.shows_next_of_code (h : (s.step b next).IsCode) (hnext : OpensNothing next') :
    s.shows b next' = s.shows b next := by
  by_cases hs : s.mode = .code
  · rw [shows, shows, opensComment_of_isCode hs h, hnext.opensComment]
  · rw [shows_eq_false hs, shows_eq_false hs]

/-- The byte behind a part that ends in code does not matter, unless it opens a comment with the last byte. -/
theorem State.run_next_of_code {x : Bytes} (h : (s.run x next).IsCode) (hnext : OpensNothing next') :
    s.run x next' = s.run x next := by
  induction x generalizing s with
  | nil => rfl
  | cons b x ih =>
    cases x with
    | nil => exact step_next_of_code h hnext
    | cons c x => exact ih (s := s.step b (some c)) h

theorem visitsBefore_next_of_code {x : Bytes} (h : (s.run x next).IsCode) (hnext : OpensNothing next') (i : Nat) :
    visitsBefore next' i s x = visitsBefore next i s x := by
  induction x generalizing i s with
  | nil => rfl
  | cons b x ih =>
    cases x with
    | nil =>
      have hshows : s.shows b (([] : Bytes).head?.or next') = s.shows b (([] : Bytes).head?.or next) :=
        State.shows_next_of_code h hnext
      simp only [visitsBefore, hshows]
    | cons c x =>
      rw [visitsBefore, ih (s := s.step b ((c :: x).head?.or next')) h]
      rfl

end

/-! ### Cutting a part out -/

/-- **A part of a text can be cut out** when the scanner is in the same state of code at its ends, and what follows
opens no comment. -/
theorem visits_cut {front block back : Bytes} (hcode : (stateAt (front ++ (block ++ back)) front.length).IsCode)
    (hsame : stateAt (front ++ (block ++ back)) (front.length + block.length) =
      stateAt (front ++ (block ++ back)) front.length) (hback : OpensNothing back.head?) :
    visits (front ++ back) 0 =
      (visits (front ++ (block ++ back)) 0).filter (fun v => v.offset < front.length) ++
        ((visits (front ++ (block ++ back)) 0).filter (fun v => front.length + block.length ≤ v.offset)).map
          fun v => { v with offset := v.offset - block.length } := by
  have hassoc : front ++ (block ++ back) = (front ++ block) ++ back := (List.append_assoc _ _ _).symm
  have hlen : front.length + block.length = (front ++ block).length := List.length_append.symm
  -- the whole text, cut in front of the part and behind it
  have hbefore : (visits (front ++ (block ++ back)) 0).filter (fun v => v.offset < front.length) =
      visitsBefore (block ++ back).head? 0 State.start front := by
    have hfilter := filter_lt 0 State.start front (block ++ back)
    rwa [Nat.zero_add] at hfilter
  have hbehind : (visits (front ++ (block ++ back)) 0).filter (fun v => front.length + block.length ≤ v.offset) =
      visitsFrom (front.length + block.length) (stateAt (front ++ (block ++ back)) front.length) back := by
    have hfilter := filter_ge 0 State.start (front ++ block) back
    rw [Nat.zero_add, ← stateAt_append, ← hassoc, ← hlen, hsame] at hfilter
    exact hfilter
  rw [stateAt_append] at hcode hbehind
  have hfront : visitsBefore back.head? 0 State.start front = visitsBefore (block ++ back).head? 0 State.start front :=
    visitsBefore_next_of_code hcode hback 0
  have hstate : State.start.run front back.head? = State.start.run front (block ++ back).head? :=
    State.run_next_of_code hcode hback
  have hmove : visitsFrom front.length (State.start.run front (block ++ back).head?) back =
      (visitsFrom (front.length + block.length) (State.start.run front (block ++ back).head?) back).map
        fun v => { v with offset := v.offset - block.length } := by
    rw [visitsFrom_move (front.length + block.length) front.length]
    apply List.map_congr_left
    intro v hv
    rw [visitsFrom_eq] at hv
    have hle := (offset_of_mem hv).1
    rw [show v.offset - (front.length + block.length) + front.length = v.offset - block.length by omega]
  calc visits (front ++ back) 0
      = visitsBefore back.head? 0 State.start front ++
          visitsFrom front.length (State.start.run front back.head?) back := by
        rw [visits, List.drop_zero, visitsFrom_append, Nat.zero_add]
    _ = _ := by rw [hfront, hstate, hmove, hbefore, hbehind]

end Scan

namespace Group

variable {body : Bytes} {o : Options} {g : Group}

/-- The scanner is as at the start in front of a group and behind it, when it shows the first byte of the group and
comes to the brace of the header at depth zero. -/
theorem stateAt_ends {hd : Header} (h : extractBalanced body o = .ok g)
    (hhead : hd ∈ topLevel o.keyword (.exactly o.name) body) (hstart : ∃ v ∈ Scan.visits body 0, v.offset = g.start)
    (hbrace : ∃ v ∈ Scan.visits body 0, v.offset = hd.stop - 1 ∧ v.depth = 0) :
    Scan.stateAt body g.start = Scan.State.start ∧ Scan.stateAt body g.stop = Scan.State.start := by
  have hzero : Scan.stateAt body 0 = Scan.State.start := rfl
  obtain ⟨l, hd', brace, htop, hlen, hmatch, hclose⟩ := layout_of_extractBalanced h
  obtain rfl : hd = hd' := by
    rw [htop] at hhead
    exact List.mem_singleton.1 hhead
  constructor
  · -- the white space in front of the header changes nothing, not even the depth
    obtain ⟨v, hv, hoff⟩ := hstart
    obtain ⟨-, w, hw, hwoff, hw0⟩ := of_mem_topLevel hhead
    have hfirst := (Scan.stateAt_of_mem hzero hv).2.1
    have hheader := (Scan.stateAt_of_mem hzero hw).2.1
    have hinert : l.gap.all Scan.isInert = true := Scan.all_inert_of_isSpace l.gap_space
    have hpass : Scan.stateAt body hd.start = Scan.stateAt body g.start := by
      have hdrop : body.drop g.start = l.gap ++ (l.keyword ++ lparen :: l.rest ++ l.back) := by
        rw [l.start_eq, (congrArg (List.drop _) l.body_eq :), List.drop_left, l.raw_eq, List.append_assoc]
      rw [← hlen, ← l.start_eq, Scan.stateAt_add, hdrop, List.take_left]
      apply Scan.State.run_inert _ hinert
      rw [← hoff, hfirst]
    rw [hwoff, hpass, ← hoff, hfirst, hw0] at hheader
    rw [← hoff, hfirst, hheader]
    rfl
  · obtain ⟨v, hv, hoff, hv0⟩ := hbrace
    have hopen : Scan.stateAt body (hd.stop - 1) = Scan.State.start := by
      rw [← hoff, (Scan.stateAt_of_mem hzero hv).2.1, hv0]
      rfl
    exact Scan.stateAt_closeCall? (Scan.stateAt_matchBrace? hopen hmatch) hclose

/-- White space opens no comment. -/
theorem opensNothing_of_space {s : Bytes} (h : ∀ b ∈ s.head?, Scan.isSpace b = true) : Scan.OpensNothing s.head? := by
  constructor <;> intro heq <;> exact absurd (h _ heq) (by decide)

/-- **A group can be cut out of its body.** The scanner shows of the rest what it showed of the body in front of the
group and behind it, at the depths it had. -/
theorem visits_remainder {hd : Header} (hscan : o.isHeuristic = false) (h : extract body o = .ok g)
    (hstart : ∃ v ∈ Scan.visits body 0, v.offset = g.start)
    (hhead : hd ∈ topLevel o.keyword (.exactly o.name) body)
    (hbrace : ∃ v ∈ Scan.visits body 0, v.offset = hd.stop - 1 ∧ v.depth = 0)
    (hback : ∀ b ∈ (body.drop g.stop).head?, Scan.isSpace b = true) :
    Scan.visits (remainder body g) 0 =
      (Scan.visits body 0).filter (fun v => v.offset < g.start) ++
        ((Scan.visits body 0).filter (fun v => g.stop ≤ v.offset)).map
          fun v => { v with offset := v.offset - (g.stop - g.start) } := by
  have hbalanced := extractBalanced_of_extract hscan h
  obtain ⟨hfront, hend⟩ := stateAt_ends hbalanced hhead hstart hbrace
  obtain ⟨l⟩ := layout_of_extract h
  have hstop : g.stop = l.front.length + g.raw.length := by rw [l.stop_eq, List.length_append]
  have hsize : g.stop - g.start = g.raw.length := by rw [hstop, l.start_eq, Nat.add_sub_cancel_left]
  have hnext : Scan.OpensNothing l.back.head? := opensNothing_of_space (l.drop_stop ▸ hback)
  have hcut := @Scan.visits_cut l.front g.raw l.back
  rw [← l.body_eq, ← hstop, ← l.start_eq] at hcut
  rw [remainder, l.take_start, l.drop_stop, hsize]
  exact hcut (by rw [hfront]; exact ⟨rfl, rfl⟩) (hend.trans hfront.symm) hnext

/-- The front ends with a slash, and what stands behind the group starts with a comment. The body of the group holds a
template with a substitution, and an argument follows it. -/
theorem visits_remainder_slash :
    let o : Options := { keyword := "d", name := "a" }
    let front : Bytes := "\x7b'\x7d'\x7d 4 /"
    let raw : Bytes := "\n\td('a',()=>\x7bf(`\x7d$\x7b'\x7d'\x7d`)\x7d, [1] );"
    let back : Bytes := " // \x7b\n\x7bz"
    let body := front ++ (raw ++ back)
    o.isHeuristic = false ∧ extract body o = .ok ⟨"a", raw, 9⟩ ∧ (∃ v ∈ Scan.visits body 0, v.offset = 9) ∧
      ⟨11, 22, "a"⟩ ∈ topLevel o.keyword (.exactly o.name) body ∧
      (∃ v ∈ Scan.visits body 0, v.offset = 21 ∧ v.depth = 0) ∧ (∀ b ∈ (body.drop 43).head?, Scan.isSpace b = true) ∧
      Scan.visits (front ++ back) 0 = (Scan.visits body 0).filter (fun v => v.offset < 9) ++
        ((Scan.visits body 0).filter (fun v => 43 ≤ v.offset)).map fun v => { v with offset := v.offset - 34 } := by
  intro o front raw back body
  have hextract : extract body o = .ok ⟨"a", raw, 9⟩ := by decide +kernel
  have hstart : ∃ v ∈ Scan.visits body 0, v.offset = 9 := ⟨⟨9, lf, 0⟩, by decide +kernel, rfl⟩
  have hhead : ⟨11, 22, "a"⟩ ∈ topLevel o.keyword (.exactly o.name) body := by decide +kernel
  have hbrace : ∃ v ∈ Scan.visits body 0, v.offset = 21 ∧ v.depth = 0 := ⟨⟨21, lbrace, 0⟩, by decide +kernel, rfl, rfl⟩
  have hback : ∀ b ∈ (body.drop 43).head?, Scan.isSpace b = true := by decide +kernel
  exact ⟨rfl, hextract, hstart, hhead, hbrace, hback, visits_remainder rfl hextract hstart hhead hbrace hback⟩

end Group

end Spotlight
