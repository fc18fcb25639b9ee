import Spotlight.Proofs.Scan.Visits
import Spotlight.Scan.Call

/-!
# What the scanner passes without a trace

The scanner leaves a comment in the state in which it entered it, and leaves the body of a call and the
call itself in the state in which it stood at the opening brace.

* `Scan.visitsFrom_lineComment`, `Scan.visitsFrom_blockComment` — a comment shows no byte and changes
  nothing;
* `Scan.visitsFrom_inert` — bytes of code that change nothing;
* `Scan.matchBrace?_bounds`, `Scan.closeCall?_bounds` — where a body and a call end;
* `Scan.stateAt_matchBrace?`, `Scan.stateAt_closeCall?` — the state there.
-/

namespace Spotlight.Scan

open Bytes

/-! ### Bytes that are hidden -/

theorem visitsFrom_hidden {s : State} {b : UInt8} {rest : Bytes}
    (h : s.shows b rest.head? = false) (i : Nat) :
    visitsFrom i s (b :: rest) = visitsFrom (i + 1) (s.step b rest.head?) rest := by
  rw [visitsFrom, h]
  rfl

/-- Outside code no byte shows. -/
theorem State.shows_eq_false {s : State} (hs : s.mode ≠ .code) (b : UInt8) (next : Option UInt8) :
    s.shows b next = false := by
  rw [shows, beq_false_of_ne hs]
  rfl

/-- The pair that opens a comment does not show. -/
theorem State.shows_of_opensComment (s : State) {b : UInt8} {next : Option UInt8}
    (h : opensComment b next = true) : s.shows b next = false := by
  simp [shows, h]

/-! ### Comments -/

/-- Within a line comment nothing changes up to the end of the line. -/
theorem visitsFrom_line {s : State} (hs : s.mode = .line) {x : Bytes} (hx : lf ∉ x) (i : Nat)
    (y : Bytes) :
    visitsFrom i s (x ++ lf :: y) = visitsFrom (i + x.length + 1) { s with mode := .code } y := by
  have hhide := State.shows_eq_false (s := s) (by rw [hs]; decide)
  induction x generalizing i with
  | nil =>
    rw [List.nil_append, visitsFrom_hidden (hhide _ _), State.step, hs]
    rfl
  | cons b x ih =>
    have hb : (b == lf) = false := beq_false_of_ne fun h => hx (by simp [h])
    have hstep : s.step b (x ++ lf :: y).head? = s := by
      rw [State.step, hs]
      dsimp only
      rw [hb]
      rfl
    have hlen : i + 1 + x.length + 1 = i + (b :: x).length + 1 := by rw [List.length_cons]; omega
    rw [List.cons_append, visitsFrom_hidden (hhide _ _), hstep,
      ih (fun h => hx (List.mem_cons_of_mem b h)), hlen]

/-- A line comment shows no byte and changes nothing. -/
theorem visitsFrom_lineComment {s : State} (hs : s.mode = .code) {x : Bytes} (hx : lf ∉ x) (i : Nat)
    (y : Bytes) :
    visitsFrom i s (slash :: slash :: (x ++ lf :: y)) = visitsFrom (i + x.length + 3) s y := by
  have hstep : s.step slash (some slash) = { s with mode := .line } := by
    rw [State.step, hs]
    rfl
  have hslash : lf ∉ slash :: x := by
    rw [List.mem_cons, not_or]
    exact ⟨by decide, hx⟩
  have hback : ({ s with mode := .code } : State) = s := by rw [← hs]
  have hlen : i + 1 + (slash :: x).length + 1 = i + x.length + 3 := by rw [List.length_cons]; omega
  rw [visitsFrom_hidden (s.shows_of_opensComment rfl), List.head?_cons, hstep, ← List.cons_append,
    visitsFrom_line rfl hslash, hback, hlen]

/-- Within a block comment nothing changes up to its end. -/
theorem visitsFrom_block {s : State} (hs : s.mode = .block) {x : Bytes} (hx : ¬ [star, slash] <:+: x)
    (i : Nat) (y : Bytes) :
    visitsFrom i s (x ++ star :: slash :: y) =
      visitsFrom (i + x.length + 2) { s with mode := .code } y := by
  have hhide := State.shows_eq_false (s := s) (by rw [hs]; decide)
  induction x generalizing i with
  | nil =>
    have hclose : s.step star (some slash) = { s with mode := .closing } := by
      rw [State.step, hs]
      rfl
    rw [List.nil_append, visitsFrom_hidden (hhide _ _), List.head?_cons, hclose,
      visitsFrom_hidden (State.shows_eq_false (by simp) _ _)]
    rfl
  | cons b x ih =>
    have hx' : ¬ [star, slash] <:+: x := fun h => hx (h.trans (List.suffix_cons b x).isInfix)
    -- an asterisk in front of the end is not followed by a slash of the comment itself
    have hstay : (b == star && (x ++ star :: slash :: y).head? == some slash) = false := by
      rw [← Bool.not_eq_true, Bool.and_eq_true, beq_iff_eq, beq_iff_eq]
      rintro ⟨rfl, hnext⟩
      cases x with
      | nil => exact absurd hnext (by simp; decide)
      | cons c x =>
        obtain rfl : c = slash := Option.some.inj hnext
        exact hx ⟨[], x, rfl⟩
    have hstep : s.step b (x ++ star :: slash :: y).head? = s := by
      rw [State.step, hs]
      dsimp only
      rw [hstay]
      rfl
    have hlen : i + 1 + x.length + 2 = i + (b :: x).length + 2 := by rw [List.length_cons]; omega
    rw [List.cons_append, visitsFrom_hidden (hhide _ _), hstep, ih hx', hlen]

/-- A block comment shows no byte and changes nothing. -/
theorem visitsFrom_blockComment {s : State} (hs : s.mode = .code) {x : Bytes}
    (hx : ¬ [star, slash] <:+: x) (i : Nat) (y : Bytes) :
    visitsFrom i s (slash :: star :: (x ++ star :: slash :: y)) =
      visitsFrom (i + x.length + 4) s y := by
  have hstep : s.step slash (some star) = { s with mode := .opening } := by
    rw [State.step, hs]
    rfl
  have hback : ({ s with mode := .code } : State) = s := by rw [← hs]
  have hlen : i + 1 + 1 + x.length + 2 = i + x.length + 4 := by omega
  rw [visitsFrom_hidden (s.shows_of_opensComment rfl), List.head?_cons, hstep,
    visitsFrom_hidden (State.shows_eq_false (by simp) _ _)]
  have hblock : (State.mk .opening s.depth s.outer).step star (x ++ star :: slash :: y).head?
      = { s with mode := .block } := rfl
  rw [hblock, visitsFrom_block rfl hx, hback, hlen]

/-! ### White space -/

/-- Is the byte passed over in code: no brace, no quote and no part of a comment? -/
def isInert (b : UInt8) : Bool :=
  b != slash && !isDelimiter b && b != lbrace && b != rbrace

theorem State.step_inert {s : State} (hs : s.mode = .code) {b : UInt8} (hb : isInert b = true)
    (next : Option UInt8) : s.step b next = s := by
  simp only [isInert, bne, Bool.and_eq_true, Bool.not_eq_true'] at hb
  obtain ⟨⟨⟨hslash, hdelim⟩, hopen⟩, hclose⟩ := hb
  simp only [step, hs, stepCode, hslash, hdelim, hopen, hclose, Bool.false_and, Bool.false_eq_true,
    if_false]

theorem State.run_inert {s : State} (hs : s.mode = .code) {x : Bytes} (hx : x.all isInert = true)
    (next : Option UInt8) : s.run x next = s := by
  induction x with
  | nil => rfl
  | cons b x ih =>
    rw [List.all_cons, Bool.and_eq_true] at hx
    rw [run_cons, step_inert hs hx.1, ih hx.2]

/-- Inert bytes of code show one by one, and change nothing. -/
theorem visitsFrom_inert {s : State} (hs : s.mode = .code) (houter : s.outer = []) {x : Bytes}
    (hx : x.all isInert = true) (i : Nat) (y : Bytes) :
    visitsFrom i s (x ++ y) =
      x.mapIdx (fun k b => ⟨i + k, b, s.depth⟩) ++ visitsFrom (i + x.length) s y := by
  induction x generalizing i with
  | nil => rfl
  | cons b x ih =>
    rw [List.all_cons, Bool.and_eq_true] at hx
    have hb := hx.1
    simp only [isInert, bne, Bool.and_eq_true, Bool.not_eq_true'] at hb
    have hshows : s.shows b (x ++ y).head? = true := by
      simp [State.shows, opensComment, hs, houter, hb.1.1.1, hb.1.1.2]
    have hlen : i + 1 + x.length = i + (b :: x).length := by rw [List.length_cons]; omega
    have hidx : (fun k b => (⟨i + 1 + k, b, s.depth⟩ : Visit)) = fun k b => ⟨i + (k + 1), b, s.depth⟩ := by
      funext k b
      rw [show i + 1 + k = i + (k + 1) by omega]
    rw [List.cons_append, visitsFrom, State.step_inert hs hx.1, ih hx.2, hshows, hlen, hidx,
      List.mapIdx_cons]
    rfl

theorem isInert_of_isGap {newlines : Bool} {b : UInt8} (h : isGap newlines b = true) :
    isInert b = true := by
  simp only [isGap, Bool.or_eq_true, Bool.and_eq_true, beq_iff_eq] at h
  rcases h with (rfl | rfl) | ⟨-, rfl | rfl⟩ <;> rfl

/-- Space after a call is passed over without a trace. -/
theorem stateAt_skipSpace {src : Bytes} {i : Nat} (h : (stateAt src i).mode = .code)
    (newlines : Bool) : stateAt src (skipSpace src i newlines) = stateAt src i := by
  have hgap : ((src.drop i).takeWhile (isGap newlines)).all isInert = true := by
    rw [List.all_eq_true]
    intro b hb
    exact isInert_of_isGap (List.all_eq_true.1 List.all_takeWhile b hb)
  have htake : (src.drop i).take ((src.drop i).takeWhile (isGap newlines)).length
      = (src.drop i).takeWhile (isGap newlines) :=
    (List.prefix_iff_eq_take.1 (List.takeWhile_prefix _)).symm
  rw [skipSpace, stateAt_add, htake, State.run_inert h hgap]

/-! ### Bodies and calls -/

theorem drop_eq_cons {src : Bytes} {i : Nat} {b : UInt8} (h : src[i]? = some b) :
    src.drop i = b :: src.drop (i + 1) := by
  obtain ⟨hi, hb⟩ := List.getElem?_eq_some_iff.1 h
  rw [← hb, List.drop_eq_getElem_cons hi]

theorem stateAt_inert {src : Bytes} {i : Nat} {b : UInt8} (hs : (stateAt src i).mode = .code)
    (hb : src[i]? = some b) (hin : isInert b = true) : stateAt src (i + 1) = stateAt src i := by
  rw [stateAt_succ (drop_eq_cons hb), State.step_inert hs hin]

/-- The brace that closes a body stands behind the one that opens it. -/
theorem exists_of_matchBrace? {src : Bytes} {k e : Nat} (h : matchBrace? src k = some e) :
    ∃ v ∈ visits src k, v.byte = rbrace ∧ v.depth = 1 ∧ e = v.offset + 1 := by
  obtain ⟨v, hv, rfl⟩ := Option.map_eq_some_iff.1 h
  have hprop := List.find?_some hv
  rw [Bool.and_eq_true, beq_iff_eq, beq_iff_eq] at hprop
  exact ⟨v, List.mem_of_find?_eq_some hv, hprop.1, hprop.2, rfl⟩

theorem visits_bounds {src : Bytes} {k : Nat} {v : Visit} (h : v ∈ visits src k) :
    k ≤ v.offset ∧ v.offset < src.length := by
  obtain ⟨front, rest, hsrc, hoff, -⟩ := exists_of_mem h
  have hlen := congrArg List.length hsrc
  simp only [List.length_drop, List.length_append, List.length_cons] at hlen
  omega

theorem matchBrace?_bounds {src : Bytes} {k e : Nat} (h : matchBrace? src k = some e) :
    k < e ∧ e ≤ src.length := by
  obtain ⟨v, hv, -, -, rfl⟩ := exists_of_matchBrace? h
  have := visits_bounds hv
  omega

/-- Behind the brace that closes a body the scanner is where it was in front of the body. -/
theorem stateAt_matchBrace? {src : Bytes} {k e : Nat} (hk : stateAt src k = State.start)
    (h : matchBrace? src k = some e) : stateAt src e = State.start := by
  obtain ⟨v, hv, hbyte, hdepth, rfl⟩ := exists_of_matchBrace? h
  obtain ⟨-, hstate, rest, hdrop, -⟩ := stateAt_of_mem hk hv
  rw [hbyte] at hdrop
  rw [stateAt_succ hdrop, hstate, hdepth]
  rfl

/-- The parenthesis that closes an argument list is a code byte at depth zero. -/
theorem exists_of_closingParen? {opened : Int} {vs : List Visit} {e : Nat}
    (h : closingParen? opened vs = some e) : ∃ v ∈ vs, v.depth = 0 ∧ e = v.offset := by
  fun_induction closingParen? opened vs with
  | case1 => simp at h
  | case2 opened v vs _ ih =>
    obtain ⟨w, hw, hrest⟩ := ih h
    exact ⟨w, List.mem_cons_of_mem v hw, hrest⟩
  | case3 opened v vs _ hparen =>
    simp only [Bool.and_eq_true, beq_iff_eq] at hparen
    exact ⟨v, List.mem_cons_self, hparen.2, (Option.some.inj h).symm⟩
  | case4 opened v vs _ _ _ ih =>
    obtain ⟨w, hw, hrest⟩ := ih h
    exact ⟨w, List.mem_cons_of_mem v hw, hrest⟩
  | case5 => simp at h
  | case6 opened v vs _ _ _ _ ih =>
    obtain ⟨w, hw, hrest⟩ := ih h
    exact ⟨w, List.mem_cons_of_mem v hw, hrest⟩

/-- What ends a call: a closing parenthesis or a semicolon. -/
def isCallEnd (b : UInt8) : Bool := b == rparen || b == semicolon

theorem le_skipSpace (src : Bytes) (i : Nat) (newlines : Bool) : i ≤ skipSpace src i newlines :=
  Nat.le_add_right i _

theorem lt_length_of_getElem? {src : Bytes} {i : Nat} {b : UInt8} (h : src[i]? = some b) :
    i < src.length := (List.getElem?_eq_some_iff.1 h).1

/-- The end of a call lies behind its closing parenthesis, or behind the semicolon after that. -/
theorem exists_of_closeParen? {src : Bytes} {i e : Nat} (h : closeParen? src i = some e) :
    src[i]? = some rparen ∧
      (e = i + 1 ∨ ∃ j, j = skipSpace src (i + 1) false ∧ src[j]? = some semicolon ∧ e = j + 1) := by
  unfold closeParen? at h
  split at h
  · rename_i hparen
    refine ⟨by simpa using hparen, ?_⟩
    dsimp only at h
    split at h
    · rename_i hsemi
      exact Or.inr ⟨_, rfl, by simpa using hsemi, (Option.some.inj h).symm⟩
    · exact Or.inl (Option.some.inj h).symm
  · simp at h

theorem closeParen?_bounds {src : Bytes} {i e : Nat} (h : closeParen? src i = some e) :
    i < e ∧ e ≤ src.length := by
  obtain ⟨hparen, rfl | ⟨j, rfl, hsemi, rfl⟩⟩ := exists_of_closeParen? h
  · have := lt_length_of_getElem? hparen
    omega
  · have hle := le_skipSpace src (i + 1) false
    have := lt_length_of_getElem? hsemi
    omega

theorem closeParen?_last {src : Bytes} {i e : Nat} (h : closeParen? src i = some e) :
    ∃ b, src[e - 1]? = some b ∧ isCallEnd b = true := by
  obtain ⟨hparen, rfl | ⟨j, -, hsemi, rfl⟩⟩ := exists_of_closeParen? h
  · exact ⟨rparen, hparen, rfl⟩
  · exact ⟨semicolon, hsemi, rfl⟩

theorem stateAt_closeParen? {src : Bytes} {i e : Nat} (hi : stateAt src i = State.start)
    (h : closeParen? src i = some e) : stateAt src e = State.start := by
  have hcode : (stateAt src i).mode = .code := by rw [hi]; rfl
  obtain ⟨hparen, hend⟩ := exists_of_closeParen? h
  have hafter : stateAt src (i + 1) = State.start := by rw [stateAt_inert hcode hparen rfl, hi]
  rcases hend with rfl | ⟨j, rfl, hsemi, rfl⟩
  · exact hafter
  · have hskip : stateAt src (skipSpace src (i + 1) false) = State.start := by
      rw [stateAt_skipSpace (by rw [hafter]; rfl), hafter]
    rw [stateAt_inert (by rw [hskip]; rfl) hsemi rfl, hskip]

/-- The closing parenthesis of a call stands right behind the space after the body, or behind
further arguments. -/
theorem exists_of_closeCall? {src : Bytes} {i e : Nat} (h : closeCall? src i = some e) :
    ∃ p, closeParen? src p = some e ∧ (p = skipSpace src i true ∨
      src[skipSpace src i true]? = some comma ∧ argsEnd? src (skipSpace src i true + 1) = some p) := by
  unfold closeCall? at h
  dsimp only at h
  split at h
  · rename_i hcomma
    obtain ⟨p, hp, hclose⟩ := Option.bind_eq_some_iff.1 h
    exact ⟨p, hclose, Or.inr ⟨by simpa using hcomma, hp⟩⟩
  · exact ⟨_, h, Or.inl rfl⟩

theorem closeCall?_bounds {src : Bytes} {i e : Nat} (h : closeCall? src i = some e) :
    i < e ∧ e ≤ src.length := by
  have hle := le_skipSpace src i true
  obtain ⟨p, hclose, hp⟩ := exists_of_closeCall? h
  have hbounds := closeParen?_bounds hclose
  rcases hp with rfl | ⟨-, hargs⟩
  · omega
  · obtain ⟨v, hv, -, rfl⟩ := exists_of_closingParen? hargs
    have := visits_bounds hv
    omega

theorem closeCall?_last {src : Bytes} {i e : Nat} (h : closeCall? src i = some e) :
    ∃ b, src[e - 1]? = some b ∧ isCallEnd b = true := by
  obtain ⟨p, hclose, -⟩ := exists_of_closeCall? h
  exact closeParen?_last hclose

/-- Behind a call the scanner is where it was in front of the rest of the call. -/
theorem stateAt_closeCall? {src : Bytes} {i e : Nat} (hi : stateAt src i = State.start)
    (h : closeCall? src i = some e) : stateAt src e = State.start := by
  have hskip : stateAt src (skipSpace src i true) = State.start := by
    rw [stateAt_skipSpace (by rw [hi]; rfl), hi]
  obtain ⟨p, hclose, rfl | ⟨hcomma, hargs⟩⟩ := exists_of_closeCall? h
  · exact stateAt_closeParen? hskip hclose
  · have hstart : stateAt src (skipSpace src i true + 1) = State.start := by
      rw [stateAt_inert (by rw [hskip]; rfl) hcomma rfl, hskip]
    obtain ⟨v, hv, hdepth, rfl⟩ := exists_of_closingParen? hargs
    obtain ⟨-, hstate, -⟩ := stateAt_of_mem hstart hv
    rw [hdepth] at hstate
    exact stateAt_closeParen? hstate hclose

end Spotlight.Scan
