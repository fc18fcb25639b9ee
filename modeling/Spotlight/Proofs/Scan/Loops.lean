import Spotlight.Proofs.Scan.Block
import Spotlight.Proofs.Scan.Levels
import Spotlight.Proofs.Text.Bytes

/-!
# Scanning by loops

The scanner passes every byte once, with a stack of open substitutions. The same code bytes are found by loops that
jump over comments and strings: a loop over code starts one over a string at every quote, and a loop over a template
starts one over code at every substitution. Every round of a loop goes on where another loop has ended, so that nothing
but what the loops find keeps them from running on forever, or past the end of the text. They do neither.

* `Scan.Run` — what becomes of a loop that is given some rounds: they may not be enough, and it may read outside the
  text;
* `Scan.walkCode`, `Scan.passString`, `Scan.closingBrace` — the loops. A round leaves one round less to what follows it
  and to the loops it starts, and nothing else bounds them;
* `Scan.WalkEnds`, `Scan.PassEnds` — from an offset on a loop ends, with the answer of the scanner, if its rounds are more
  than twice the bytes left. One round leads to later offsets (`Scan.WalkEnds.of_later`, `Scan.PassEnds.of_later`), so
  both loops end from everywhere on (`Scan.loops_end`);
* `Scan.loops_end_inRange` — the loops end, get on and stay in the text.
-/

namespace Spotlight.Scan

open Bytes

/-! ### The loops -/

/-- A reading outside the text. -/
structure OutOfRange where
  /-- Where it reads. -/
  offset : Nat
deriving DecidableEq, Repr

/-- What becomes of a loop: nothing when its rounds are used up before it ends, or else a result, if it does not read
outside the text. -/
abbrev Run := ExceptT OutOfRange Option

/-- The byte at an offset. -/
def byteAt (src : Bytes) (i : Nat) : Run UInt8 :=
  match src[i]? with
  | some b => pure b
  | none => throw ⟨i⟩

/-- The byte at an offset, after a look at where the text ends. -/
def peek (src : Bytes) (i : Nat) : Run (Option UInt8) :=
  if i < src.length then some <$> byteAt src i else pure none

/-- The text from an offset on. -/
def restFrom (src : Bytes) (i : Nat) : Run Bytes :=
  if i ≤ src.length then pure (src.drop i) else throw ⟨i⟩

/-- What is done at a code byte: it changes a memory, and says whether the loop goes on. -/
abbrev Visitor (σ : Type) := σ → Visit → σ × Bool

/-- The memory after some code bytes, up to the one at which the visitor stops. -/
def visitAll {σ : Type} (visit : Visitor σ) : σ → List Visit → σ
  | s, [] => s
  | s, v :: vs => if (visit s v).2 then visitAll visit (visit s v).1 vs else (visit s v).1

/-- Stops at the closing brace at depth one, and remembers the offset behind it. -/
def untilBrace : Visitor (Option Nat) := fun found v =>
  if v.byte == rbrace && v.depth == 1 then (some (v.offset + 1), false) else (found, true)

mutual

/-- Visits the code from an offset on. Comments and strings are jumped over. -/
def walkCode (src : Bytes) {σ : Type} (visit : Visitor σ) : (rounds : Nat) → σ → (i : Nat) → (depth : Int) → Run σ
  | 0, _, _, _ => none
  | n + 1, s, i, depth => do
    if i < src.length then
      let b ← byteAt src i
      let next ← peek src (i + 1)
      if b == slash && next == some slash then
        match find? [lf] (← restFrom src i) with
        | some k => walkCode src visit n s (i + k + 1) depth
        | none => pure s
      else if b == slash && next == some star then
        match find? [star, slash] (← restFrom src (i + 2)) with
        | some k => walkCode src visit n s (i + (k + 3) + 1) depth
        | none => pure s
      else if isDelimiter b then
        let last ← passString src n i
        walkCode src visit n s (last + 1) depth
      else if (visit s ⟨i, b, depth⟩).2 then
        walkCode src visit n (visit s ⟨i, b, depth⟩).1 (i + 1) (depth + weight b)
      else pure (visit s ⟨i, b, depth⟩).1
    else pure s

/-- The last byte of the string opened at an offset. -/
def passString (src : Bytes) : (rounds : Nat) → (start : Nat) → Run Nat
  | 0, _ => none
  | n + 1, start => do
    let q ← byteAt src start
    passText src q n (start + 1)

/-- The last byte of a string with delimiter `q`, of which the text from an offset on is left. -/
def passText (src : Bytes) (q : UInt8) : (rounds : Nat) → (i : Nat) → Run Nat
  | 0, _ => none
  | n + 1, i => do
    if i < src.length then
      let b ← byteAt src i
      if b == backslash then passText src q n (i + 1 + 1)
      else if b == q then pure i
      else if b == lf && q != grave then pure i
      else if b == dollar && q == grave && (← peek src (i + 1)) == some lbrace then
        match ← closingBrace src n (i + 1) with
        | some e => passText src q n (e - 1 + 1)
        | none => pure (src.length - 1)
      else passText src q n (i + 1)
    else pure (src.length - 1)

/-- The offset behind the brace that closes the one at an offset. -/
def closingBrace (src : Bytes) : (rounds : Nat) → (start : Nat) → Run (Option Nat)
  | 0, _ => none
  | n + 1, start => walkCode src untilBrace n none start 0

end

/-! ### Readings in the text -/

section

variable {src rest : Bytes} {i : Nat} {b : UInt8}

theorem lt_length_of_drop (h : src.drop i = b :: rest) : i < src.length :=
  lt_length_of_getElem? (getElem?_of_drop h)

theorem byteAt_of_drop (h : src.drop i = b :: rest) : byteAt src i = pure b := by
  rw [byteAt, getElem?_of_drop h]

theorem drop_succ_of_drop (h : src.drop i = b :: rest) : src.drop (i + 1) = rest := by
  rw [← List.drop_drop, h, List.drop_one, List.tail_cons]

theorem peek_of_drop (h : src.drop i = b :: rest) : peek src (i + 1) = pure rest.head? := by
  have hrest := drop_succ_of_drop h
  rw [peek]
  cases rest with
  | nil => rw [if_neg (Nat.not_lt.2 (List.drop_eq_nil_iff.1 hrest))]; rfl
  | cons c rest => rw [if_pos (lt_length_of_drop hrest), byteAt_of_drop hrest]; rfl

theorem restFrom_of_le (h : i ≤ src.length) : restFrom src i = pure (src.drop i) := if_pos h

end

/-! ### One round of a loop -/

section

variable {src t : Bytes} {i : Nat} {σ : Type} {visit : Visitor σ} {n : Nat} {s : σ} {depth : Int}

theorem walkCode_of_le (h : src.length ≤ i) : walkCode src visit (n + 1) s i depth = pure s := by
  rw [walkCode, if_neg (Nat.not_lt.2 h)]

theorem walkCode_lineComment (h : src.drop i = slash :: slash :: t) : walkCode src visit (n + 1) s i depth =
    match find? [lf] (slash :: slash :: t) with
    | some k => walkCode src visit n s (i + k + 1) depth
    | none => pure s := by
  have hi := lt_length_of_drop h
  rw [walkCode, if_pos hi, byteAt_of_drop h, pure_bind, peek_of_drop h, pure_bind, if_pos (by rfl),
    restFrom_of_le (Nat.le_of_lt hi), pure_bind, h]

theorem walkCode_blockComment (h : src.drop i = slash :: star :: t) : walkCode src visit (n + 1) s i depth =
    match find? [star, slash] t with
    | some k => walkCode src visit n s (i + (k + 3) + 1) depth
    | none => pure s := by
  have hrest := drop_succ_of_drop h
  have hi := lt_length_of_drop hrest
  have hline : ¬ (slash == slash && (star :: t).head? == some slash) = true := Bool.false_ne_true
  rw [walkCode, if_pos (lt_length_of_drop h), byteAt_of_drop h, pure_bind, peek_of_drop h, pure_bind, if_neg hline,
    if_pos (by rfl), restFrom_of_le hi, pure_bind, drop_succ_of_drop hrest]

theorem walkCode_delimiter {q : UInt8} (hq : isDelimiter q = true) (h : src.drop i = q :: t) :
    walkCode src visit (n + 1) s i depth =
      passString src n i >>= fun last => walkCode src visit n s (last + 1) depth := by
  have hslash : (q == slash) = false := by
    apply beq_false_of_ne
    rintro rfl
    exact absurd hq (by decide)
  rw [walkCode, if_pos (lt_length_of_drop h), byteAt_of_drop h, pure_bind, peek_of_drop h, pure_bind, hslash,
    Bool.false_and, Bool.false_and, if_neg Bool.false_ne_true, if_neg Bool.false_ne_true, if_pos hq]

theorem walkCode_byte {b : UInt8} (hcomment : opensComment b t.head? = false) (hdelim : isDelimiter b = false)
    (h : src.drop i = b :: t) : walkCode src visit (n + 1) s i depth =
      if (visit s ⟨i, b, depth⟩).2 then walkCode src visit n (visit s ⟨i, b, depth⟩).1 (i + 1) (depth + weight b)
      else pure (visit s ⟨i, b, depth⟩).1 := by
  rw [opensComment, Bool.and_or_distrib_left, Bool.or_eq_false_iff] at hcomment
  rw [walkCode, if_pos (lt_length_of_drop h), byteAt_of_drop h, pure_bind, peek_of_drop h, pure_bind, hcomment.1,
    hcomment.2, hdelim, if_neg Bool.false_ne_true, if_neg Bool.false_ne_true, if_neg Bool.false_ne_true]

theorem passString_of_drop {q : UInt8} (h : src.drop i = q :: t) :
    passString src (n + 1) i = passText src q n (i + 1) := by
  rw [passString, byteAt_of_drop h, pure_bind]

theorem passText_of_le (q : UInt8) (h : src.length ≤ i) : passText src q (n + 1) i = pure (src.length - 1) := by
  rw [passText, if_neg (Nat.not_lt.2 h)]

theorem passText_of_drop (q : UInt8) {b : UInt8} (h : src.drop i = b :: t) : passText src q (n + 1) i =
    if b == backslash then passText src q n (i + 1 + 1)
    else if b == q then pure i
    else if b == lf && q != grave then pure i
    else if b == dollar && q == grave && t.head? == some lbrace then
      closingBrace src n (i + 1) >>= fun
        | some e => passText src q n (e - 1 + 1)
        | none => pure (src.length - 1)
    else passText src q n (i + 1) := by
  rw [passText, if_pos (lt_length_of_drop h), byteAt_of_drop h, pure_bind, peek_of_drop h, pure_bind]

theorem visitAll_untilBrace (found : Option Nat) (vs : List Visit) :
    visitAll untilBrace found vs = (braceEnd? vs).or found := by
  induction vs generalizing found with
  | nil => rfl
  | cons v vs ih =>
    rw [visitAll, braceEnd?_cons, untilBrace]
    split
    · rfl
    · exact ih found

end

/-! ### The loops end -/

/-- From an offset on, the loop over code ends without a reading outside the text, and visits the code bytes the
scanner shows. -/
def WalkEnds (src : Bytes) (i : Nat) : Prop :=
  ∀ (n : Nat), 2 * (src.length - i) < n → ∀ (σ : Type) (visit : Visitor σ) (s : σ) (depth : Int),
    walkCode src visit n s i depth = pure (visitAll visit s (visitsFrom i ⟨.code, depth, []⟩ (src.drop i)))

/-- From an offset on, the loop over a string ends without a reading outside the text, where the scanner gets back
into code. -/
def PassEnds (src : Bytes) (i : Nat) : Prop :=
  ∀ (n : Nat), 2 * (src.length - i) < n → ∀ q : UInt8,
    passText src q n i = pure ((returnFrom? i { mode := .string q } (src.drop i)).getD (src.length - 1))

section

variable {src t : Bytes} {i : Nat}

theorem WalkEnds.closingBrace_eq (h : WalkEnds src i) {n : Nat} (hn : 2 * (src.length - i) + 1 < n) :
    closingBrace src n i = pure (matchBrace? src i) := by
  obtain ⟨n, rfl⟩ := Nat.exists_eq_add_one_of_ne_zero (Nat.ne_zero_of_lt hn)
  rw [closingBrace, h n (by omega), visitAll_untilBrace, Option.or_none]
  rfl

theorem PassEnds.passString_eq {q : UInt8} (h : PassEnds src (i + 1)) (hq : src.drop i = q :: t) {n : Nat}
    (hn : 2 * (src.length - i) ≤ n) :
    passString src n i = pure ((returnFrom? (i + 1) { mode := .string q } t).getD (src.length - 1)) := by
  have hi := lt_length_of_drop hq
  obtain ⟨n, rfl⟩ : ∃ m, n = m + 1 := ⟨n - 1, by omega⟩
  rw [passString_of_drop hq, h n (by omega), drop_succ_of_drop hq]

/-- Behind a comment the loop over code goes on as in front of it. -/
theorem WalkEnds.behind {a y : Bytes} (ha : Atom a) (h : src.drop i = a ++ y) (ih : WalkEnds src (i + a.length))
    {n : Nat} (hn : 2 * (src.length - (i + a.length)) < n) {σ : Type} (visit : Visitor σ) (s : σ) (depth : Int) :
    walkCode src visit n s (i + a.length) depth =
      pure (visitAll visit s (visitsFrom i ⟨.code, depth, []⟩ (a ++ y))) := by
  rw [ha.visitsFrom_eq rfl, ih n hn, drop_add_of_drop h]

theorem WalkEnds.lineComment (h : src.drop i = slash :: slash :: t) (ih : ∀ j, i < j → WalkEnds src j) :
    WalkEnds src i := by
  intro n hn σ visit s depth
  have hi := lt_length_of_drop h
  obtain ⟨n, rfl⟩ := Nat.exists_eq_add_one_of_ne_zero (Nat.ne_zero_of_lt hn)
  have hslashes : find? [lf] (slash :: slash :: t) = ((find? [lf] t).map (· + 1)).map (· + 1) := rfl
  rw [walkCode_lineComment h, h, hslashes]
  cases hfind : find? [lf] t with
  | none =>
    have hlf : lf ∉ slash :: t := by
      rw [List.mem_cons, not_or]
      refine ⟨by decide, fun hmem => ?_⟩
      obtain ⟨x, y, rfl⟩ := List.append_of_mem hmem
      exact not_infix_of_find? hfind ⟨x, y, by simp⟩
    have hstep : (State.mk .code depth []).step slash (slash :: t).head? = ⟨.line, depth, []⟩ := rfl
    rw [visitsFrom_hidden (State.shows_of_opensComment _ rfl), hstep, visitsFrom_line_eq_nil hlf]
    rfl
  | some k =>
    obtain ⟨x, y, rfl, rfl, hx⟩ := eq_append_of_find? (by simp) hfind
    have hlf : lf ∉ x := by
      intro hmem
      obtain ⟨u, v, rfl⟩ := List.append_of_mem hmem
      exact hx ⟨u, v, by simp⟩
    have htext : slash :: slash :: (x ++ ([lf] ++ y)) = (slash :: slash :: (x ++ [lf])) ++ y := by simp
    have hlen : i + (x.length + 1 + 1) + 1 = i + (slash :: slash :: (x ++ [lf])).length := by simp; omega
    show walkCode src visit n s (i + (x.length + 1 + 1) + 1) depth = _
    rw [htext, hlen]
    exact behind (.lineComment hlf) (h.trans htext) (ih _ (by omega)) (by omega) visit s depth

theorem WalkEnds.blockComment (h : src.drop i = slash :: star :: t) (ih : ∀ j, i < j → WalkEnds src j) :
    WalkEnds src i := by
  intro n hn σ visit s depth
  have hi := lt_length_of_drop h
  obtain ⟨n, rfl⟩ := Nat.exists_eq_add_one_of_ne_zero (Nat.ne_zero_of_lt hn)
  rw [walkCode_blockComment h, h]
  cases hfind : find? [star, slash] t with
  | none =>
    have hhide : visitsFrom (i + 1 + 1) ⟨.block, depth, []⟩ t = [] := by
      rcases blockComment_or_hidden t with ⟨x, y, -, rfl⟩ | hhide
      · exact absurd ⟨x, y, by simp⟩ (not_infix_of_find? hfind)
      · exact hhide _ _ _
    have hstep : (State.mk .code depth []).step slash (star :: t).head? = ⟨.opening, depth, []⟩ := rfl
    have hblock : (State.mk .opening depth []).step star t.head? = ⟨.block, depth, []⟩ := rfl
    rw [visitsFrom_hidden (State.shows_of_opensComment _ rfl), hstep,
      visitsFrom_hidden (State.shows_eq_false (by simp) _ _), hblock, hhide]
    rfl
  | some k =>
    obtain ⟨x, y, rfl, rfl, hx⟩ := eq_append_of_find? (by simp) hfind
    have htext : slash :: star :: (x ++ ([star, slash] ++ y)) = (slash :: star :: (x ++ [star, slash])) ++ y := by simp
    have hlen : i + (x.length + 3) + 1 = i + (slash :: star :: (x ++ [star, slash])).length := by simp; omega
    show walkCode src visit n s (i + (x.length + 3) + 1) depth = _
    rw [htext, hlen]
    exact behind (.blockComment hx) (h.trans htext) (ih _ (by omega)) (by omega) visit s depth

theorem WalkEnds.delimiter {q : UInt8} (hq : isDelimiter q = true) (h : src.drop i = q :: t)
    (ih : ∀ j, i < j → WalkEnds src j) (hpass : PassEnds src (i + 1)) : WalkEnds src i := by
  intro n hn σ visit s depth
  have hi := lt_length_of_drop h
  obtain ⟨n, rfl⟩ := Nat.exists_eq_add_one_of_ne_zero (Nat.ne_zero_of_lt hn)
  have hraise : returnFrom? (i + 1) ⟨.string q, depth, []⟩ t = returnFrom? (i + 1) { mode := .string q } t := by
    rw [← returnFrom?_raise depth (i + 1) { mode := .string q }, State.raise, Int.zero_add]
  rw [walkCode_delimiter hq h, hpass.passString_eq h (by omega), pure_bind, h, visitsFrom_delimiter hq rfl,
    visitsFrom_of_away rfl, hraise]
  obtain ⟨n, rfl⟩ : ∃ m, n = m + 1 := ⟨n - 1, by omega⟩
  cases hret : returnFrom? (i + 1) { mode := .string q } t with
  | none =>
    rw [Option.getD_none, walkCode_of_le (by omega)]
    rfl
  | some j =>
    have := returnFrom?_bounds hret
    rw [Option.getD_some, ih (j + 1) (by omega) _ (by omega), drop_of_drop (drop_succ_of_drop h) (by omega)]
    rfl

theorem WalkEnds.byte {b : UInt8} (hcomment : opensComment b t.head? = false) (hdelim : isDelimiter b = false)
    (h : src.drop i = b :: t) (ih : WalkEnds src (i + 1)) : WalkEnds src i := by
  intro n hn σ visit s depth
  have hi := lt_length_of_drop h
  obtain ⟨n, rfl⟩ := Nat.exists_eq_add_one_of_ne_zero (Nat.ne_zero_of_lt hn)
  have hshows : (State.mk .code depth []).shows b t.head? = true := by simp [State.shows, hcomment, hdelim]
  rw [walkCode_byte hcomment hdelim h, h, visitsFrom, if_pos hshows, State.step_outermost hcomment hdelim, visitAll]
  split
  · rw [ih n (by omega), drop_succ_of_drop h]
  · rfl

theorem WalkEnds.of_le (h : src.length ≤ i) : WalkEnds src i := by
  intro n hn σ visit s depth
  obtain ⟨n, rfl⟩ := Nat.exists_eq_add_one_of_ne_zero (Nat.ne_zero_of_lt hn)
  rw [walkCode_of_le h, List.drop_eq_nil_of_le h]
  rfl

theorem PassEnds.of_le (h : src.length ≤ i) : PassEnds src i := by
  intro n hn q
  obtain ⟨n, rfl⟩ := Nat.exists_eq_add_one_of_ne_zero (Nat.ne_zero_of_lt hn)
  rw [passText_of_le q h, List.drop_eq_nil_of_le h]
  rfl

/-- A round of the loop over code ends, if both loops end from all later offsets on. -/
theorem WalkEnds.of_later {b : UInt8} (h : src.drop i = b :: t) (hwalk : ∀ j, i < j → WalkEnds src j)
    (hpass : ∀ j, i < j → PassEnds src j) : WalkEnds src i := by
  by_cases hcomment : opensComment b t.head? = true
  · simp only [opensComment, Bool.and_eq_true, Bool.or_eq_true, beq_iff_eq, List.head?_eq_some_iff] at hcomment
    obtain ⟨rfl, ⟨t, rfl⟩ | ⟨t, rfl⟩⟩ := hcomment
    · exact lineComment h hwalk
    · exact blockComment h hwalk
  by_cases hdelim : isDelimiter b = true
  · exact delimiter hdelim h hwalk (hpass _ (Nat.lt_succ_self i))
  · exact byte (Bool.eq_false_iff.2 hcomment) (Bool.eq_false_iff.2 hdelim) h (hwalk _ (Nat.lt_succ_self i))

/-- A round of the loop over a string ends, if both loops end from all later offsets on. -/
theorem PassEnds.of_later {b : UInt8} (h : src.drop i = b :: t) (hwalk : ∀ j, i < j → WalkEnds src j)
    (hpass : ∀ j, i < j → PassEnds src j) : PassEnds src i := by
  intro n hn q
  have hi := lt_length_of_drop h
  have hrest := drop_succ_of_drop h
  obtain ⟨n, rfl⟩ := Nat.exists_eq_add_one_of_ne_zero (Nat.ne_zero_of_lt hn)
  rw [passText_of_drop q h, h, returnFrom?_string]
  split
  · have hcut : i + 1 + 1 - (i + 1) = 1 := by omega
    rw [hpass (i + 1 + 1) (by omega) n (by omega), drop_of_drop hrest (Nat.le_succ _), hcut]
  split
  · rfl
  split
  · rfl
  split
  · rename_i hopen
    obtain rfl : q = grave := by
      simp only [Bool.and_eq_true, beq_iff_eq] at hopen
      exact hopen.1.2
    have hbrace := (hwalk (i + 1) (Nat.lt_succ_self i)).closingBrace_eq (n := n) (by omega)
    rw [hbrace, pure_bind, matchBrace?, visits, hrest]
    cases hend : braceEnd? (visitsFrom (i + 1) .start t) with
    | none => rfl
    | some e =>
      have hlt := braceEnd?_bounds hend
      show passText src grave n (e - 1 + 1) = _
      rw [Nat.sub_add_cancel (by omega), hpass e (by omega) n (by omega), drop_of_drop hrest (by omega),
        Option.bind_some]
  · rw [hpass (i + 1) (Nat.lt_succ_self i) n (by omega), hrest]

end

/-- **The loops end,** whatever the text holds and wherever they start. The induction is on how much of the text
is left: every round of a loop, and every loop that it starts, begins at a later offset. -/
theorem loops_end (src : Bytes) (i : Nat) : WalkEnds src i ∧ PassEnds src i := by
  induction hn : src.length - i using Nat.strongRecOn generalizing i with
  | ind n ih =>
    cases h : src.drop i with
    | nil => exact ⟨.of_le (List.drop_eq_nil_iff.1 h), .of_le (List.drop_eq_nil_iff.1 h)⟩
    | cons b t =>
      have hi := lt_length_of_drop h
      have hlater : ∀ j, i < j → WalkEnds src j ∧ PassEnds src j :=
        fun j hij => ih (src.length - j) (by omega) j rfl
      exact ⟨.of_later h (fun j hj => (hlater j hj).1) fun j hj => (hlater j hj).2,
        .of_later h (fun j hj => (hlater j hj).1) fun j hj => (hlater j hj).2⟩

/-! ### Progress and range -/

theorem exists_passString {src : Bytes} {start n : Nat} (h : start < src.length)
    (hn : 2 * (src.length - start) ≤ n) :
    ∃ last, passString src n start = pure last ∧ stringEnd? src start = some last := by
  cases hdrop : src.drop start with
  | nil => exact absurd (List.drop_eq_nil_iff.1 hdrop) (Nat.not_le.2 h)
  | cons q t => exact ⟨_, (loops_end src (start + 1)).2.passString_eq hdrop hn, by rw [stringEnd?, hdrop]⟩

theorem getElem?_of_mem_visits {src : Bytes} {start : Nat} {v : Visit} (h : v ∈ visits src start) :
    src[v.offset]? = some v.byte := by
  obtain ⟨front, rest, hsrc, hoff, -⟩ := exists_of_mem h
  have hdrop := drop_add_of_drop hsrc
  rw [← hoff] at hdrop
  exact getElem?_of_drop hdrop

/-- **The scanner gets on and stays in the text.** From every offset on the loop over code ends without a reading
outside the text, in a number of rounds that grows with what is left of the text. What it visits are the code bytes, at
growing offsets within the text, each at a depth that counts the braces visited before. From every offset in the text
the loop over a string ends within the text, behind the offset unless that is the last one; and the search for a closing
brace ends, with nothing or right behind a closing brace that is visited. -/
theorem loops_end_inRange (src : Bytes) :
    (∀ start, start ≤ src.length →
      (∀ n, 2 * (src.length - start) < n → ∀ (σ : Type) (visit : Visitor σ) (s : σ),
        (walkCode src visit n s start 0).run = some (.ok (visitAll visit s (visits src start)))) ∧
      ((visits src start).Pairwise fun v w => v.offset < w.offset) ∧
      (∀ v ∈ visits src start, start ≤ v.offset ∧ v.offset < src.length ∧ src[v.offset]? = some v.byte) ∧
      ∀ front v back, visits src start = front ++ v :: back → v.depth = balance front) ∧
    ∀ start, start < src.length →
      (∃ last, (∀ n, 2 * (src.length - start) ≤ n → (passString src n start).run = some (.ok last)) ∧
        stringEnd? src start = some last ∧
        start ≤ last ∧ last ≤ src.length - 1 ∧ (start < last ∨ start = src.length - 1)) ∧
      (∀ n, 2 * (src.length - start) + 1 < n →
        (closingBrace src n start).run = some (.ok (matchBrace? src start))) ∧
      ∀ e, matchBrace? src start = some e → start < e ∧ e ≤ src.length ∧
        ∃ v ∈ visits src start, v.byte = rbrace ∧ e = v.offset + 1 := by
  refine ⟨fun start _ => ⟨?_, ?_, ?_, ?_⟩, fun start hstart => ⟨?_, ?_, ?_⟩⟩
  · intro n hn σ visit s
    exact congrArg ExceptT.run ((loops_end src start).1 n hn σ visit s 0)
  · exact pairwise_visitsFrom start State.start (src.drop start)
  · intro v hv
    exact ⟨(visits_bounds hv).1, (visits_bounds hv).2, getElem?_of_mem_visits hv⟩
  · intro front v back hvisits
    rw [depth_eq_of_visitsFrom hvisits]
    exact Int.zero_add _
  · obtain ⟨last, -, hlast⟩ := exists_passString hstart (Nat.le_refl _)
    refine ⟨last, fun n hn => ?_, hlast, stringEnd?_bounds hlast⟩
    obtain ⟨last', hpass, hlast'⟩ := exists_passString hstart hn
    obtain rfl : last' = last := Option.some.inj (hlast'.symm.trans hlast)
    exact congrArg ExceptT.run hpass
  · intro n hn
    exact congrArg ExceptT.run ((loops_end src start).1.closingBrace_eq hn)
  · intro e he
    obtain ⟨v, hv, hbyte, -, hend⟩ := exists_of_matchBrace? he
    exact ⟨(matchBrace?_bounds he).1, (matchBrace?_bounds he).2, v, hv, hbyte, hend⟩

/-- A block that holds a template with a string in its substitution, and behind it a string whose last byte is a
backslash, so that the escape reaches over the end of the text. -/
theorem loops_end_inRange_unterminated :
    let src : Bytes := "\x7b `$\x7b '\x7d' \x7d` \x7d 'a\\"
    0 ≤ src.length ∧ 2 < src.length ∧ 15 < src.length ∧ 2 * (src.length - 0) + 1 < 40 ∧
      (walkCode src (fun seen v => (seen ++ [(v.offset, v.depth)], true)) 40 [] 0 0).run =
        some (.ok [(0, 0), (1, 1), (12, 1), (13, 1), (14, 0)]) ∧
      (passString src 40 2).run = some (.ok 11) ∧ (passString src 40 15).run = some (.ok 17) ∧
      (closingBrace src 40 0).run = some (.ok (some 14)) ∧
      ∃ v ∈ visits src 0, v.byte = rbrace ∧ 14 = v.offset + 1 := by
  intro src
  have h0 : 0 < src.length := by decide
  have h2 : 2 < src.length := by decide
  have h15 : 15 < src.length := by decide
  have hrounds : 2 * (src.length - 0) + 1 < 40 := by decide
  obtain ⟨hwalk, hpass⟩ := loops_end_inRange src
  obtain ⟨last, hrun, hlast, -⟩ := (hpass 2 h2).1
  obtain ⟨last', hrun', hlast', -⟩ := (hpass 15 h15).1
  obtain rfl : last = 11 := Option.some.inj (hlast.symm.trans (by decide))
  obtain rfl : last' = 17 := Option.some.inj (hlast'.symm.trans (by decide))
  have hbrace : matchBrace? src 0 = some 14 := by decide
  refine ⟨Nat.zero_le _, h2, h15, hrounds, ?_, hrun 40 (by decide), hrun' 40 (by decide), ?_,
    ((hpass 0 h0).2.2 14 hbrace).2.2⟩
  · rw [(hwalk 0 (Nat.zero_le _)).1 40 (by omega)]
    rfl
  · rw [(hpass 0 h0).2.1 40 hrounds, hbrace]

end Spotlight.Scan
