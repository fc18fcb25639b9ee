import Spotlight.Scan.State

/-!
# The scanner on parts of a text

The scanner looks one byte ahead, so a part of a text is scanned together with the byte behind it.

* `Scan.visitsBefore` — the code bytes of a part of a text, by the byte behind it;
* `Scan.State.run_append`, `Scan.visitsFrom_append` — a text is scanned part by part;
* `Scan.State.raise` — the same state with the outermost code level at another depth. Scanning does
  not depend on that depth (`Scan.State.run_raise`, `Scan.visitsBefore_raise`);
* `Scan.stateAt` — the state in which the scanner arrives at an offset, and `Scan.stateAt_of_mem` what it is
  at a code byte;
* `Scan.visits_of_stateAt` — from a place in code on, the scanner may as well start anew.
-/

namespace Spotlight.Scan

open Bytes

/-- The code bytes of a part of a text that starts at offset `i` and is entered in state `s`, with
`next` the byte behind it. -/
def visitsBefore (next : Option UInt8) : (i : Nat) → State → Bytes → List Visit
  | _, _, [] => []
  | i, s, b :: rest =>
    let more := visitsBefore next (i + 1) (s.step b (rest.head?.or next)) rest
    if s.shows b (rest.head?.or next) then ⟨i, b, s.depth⟩ :: more else more

theorem visitsFrom_eq (i : Nat) (s : State) (x : Bytes) :
    visitsFrom i s x = visitsBefore none i s x := by
  induction x generalizing i s with
  | nil => rfl
  | cons b x ih => simp only [visitsFrom, visitsBefore, Option.or_none, ih]

/-! ### Part by part -/

@[simp] theorem State.run_nil (s : State) (next : Option UInt8) : s.run [] next = s := rfl

theorem State.run_cons (s : State) (b : UInt8) (x : Bytes) (next : Option UInt8) :
    s.run (b :: x) next = (s.step b (x.head?.or next)).run x next := rfl

theorem State.run_append (s : State) (x y : Bytes) (next : Option UInt8) :
    s.run (x ++ y) next = (s.run x (y.head?.or next)).run y next := by
  induction x generalizing s with
  | nil => rfl
  | cons b x ih => rw [List.cons_append, run_cons, ih, run_cons, List.head?_append, Option.or_assoc]

theorem visitsBefore_append (next : Option UInt8) (i : Nat) (s : State) (x y : Bytes) :
    visitsBefore next i s (x ++ y) = visitsBefore (y.head?.or next) i s x ++
      visitsBefore next (i + x.length) (s.run x (y.head?.or next)) y := by
  induction x generalizing i s with
  | nil => rfl
  | cons b x ih =>
    have hlen : i + (b :: x).length = i + 1 + x.length := by rw [List.length_cons]; omega
    simp only [List.cons_append, visitsBefore, List.head?_append, Option.or_assoc, ih, hlen,
      State.run_cons]
    split
    · rw [List.cons_append]
    · rfl

/-- A text is scanned part by part. -/
theorem visitsFrom_append (i : Nat) (s : State) (x y : Bytes) :
    visitsFrom i s (x ++ y) =
      visitsBefore y.head? i s x ++ visitsFrom (i + x.length) (s.run x y.head?) y := by
  rw [visitsFrom_eq, visitsFrom_eq, visitsBefore_append, Option.or_none]

/-! ### Where code bytes stand -/

/-- A code byte stands in the part that is scanned. -/
theorem offset_of_mem {next : Option UInt8} {i : Nat} {s : State} {x : Bytes} {v : Visit}
    (h : v ∈ visitsBefore next i s x) : i ≤ v.offset ∧ v.offset < i + x.length := by
  induction x generalizing i s with
  | nil => simp [visitsBefore] at h
  | cons b x ih =>
    have hmore : v ∈ visitsBefore next (i + 1) (s.step b (x.head?.or next)) x →
        i ≤ v.offset ∧ v.offset < i + (b :: x).length := by
      intro h
      have := ih h
      rw [List.length_cons]
      omega
    simp only [visitsBefore] at h
    split at h
    · rcases List.mem_cons.1 h with rfl | h
      · show i ≤ i ∧ i < i + (x.length + 1)
        omega
      · exact hmore h
    · exact hmore h

/-- The code bytes move with the text. -/
theorem visitsBefore_move (next : Option UInt8) (i j : Nat) (s : State) (x : Bytes) :
    visitsBefore next j s x =
      (visitsBefore next i s x).map fun v => { v with offset := v.offset - i + j } := by
  induction x generalizing i j s with
  | nil => rfl
  | cons b x ih =>
    -- offsets behind the first byte are not smaller than `i + 1`
    have hmore : visitsBefore next (j + 1) (s.step b (x.head?.or next)) x =
        (visitsBefore next (i + 1) (s.step b (x.head?.or next)) x).map
          fun v => { v with offset := v.offset - i + j } := by
      rw [ih (i + 1) (j + 1)]
      apply List.map_congr_left
      intro v hv
      have hle := (offset_of_mem hv).1
      rw [show v.offset - (i + 1) + (j + 1) = v.offset - i + j by omega]
    simp only [visitsBefore, hmore]
    split
    · rw [List.map_cons, Nat.sub_self, Nat.zero_add]
    · rfl

theorem visitsFrom_move (i j : Nat) (s : State) (x : Bytes) :
    visitsFrom j s x = (visitsFrom i s x).map fun v => { v with offset := v.offset - i + j } := by
  rw [visitsFrom_eq, visitsFrom_eq, visitsBefore_move none i j]

/-- The code bytes in front of an offset. -/
theorem filter_lt (i : Nat) (s : State) (x y : Bytes) :
    (visitsFrom i s (x ++ y)).filter (fun v => v.offset < i + x.length) =
      visitsBefore y.head? i s x := by
  rw [visitsFrom_append, visitsFrom_eq, List.filter_append]
  have hfront : (visitsBefore y.head? i s x).filter (fun v => v.offset < i + x.length)
      = visitsBefore y.head? i s x := by
    apply List.filter_eq_self.2
    intro v hv
    exact decide_eq_true (offset_of_mem hv).2
  have hback : (visitsBefore none (i + x.length) (s.run x y.head?) y).filter
      (fun v => v.offset < i + x.length) = [] := by
    apply List.filter_eq_nil_iff.2
    intro v hv
    have := (offset_of_mem hv).1
    simp only [decide_eq_true_eq]
    omega
  rw [hfront, hback, List.append_nil]

/-- The code bytes from an offset on. -/
theorem filter_ge (i : Nat) (s : State) (x y : Bytes) :
    (visitsFrom i s (x ++ y)).filter (fun v => i + x.length ≤ v.offset) =
      visitsFrom (i + x.length) (s.run x y.head?) y := by
  rw [visitsFrom_append, visitsFrom_eq, List.filter_append]
  have hfront : (visitsBefore y.head? i s x).filter (fun v => i + x.length ≤ v.offset) = [] := by
    apply List.filter_eq_nil_iff.2
    intro v hv
    have := (offset_of_mem hv).2
    simp only [decide_eq_true_eq]
    omega
  have hback : (visitsBefore none (i + x.length) (s.run x y.head?) y).filter
      (fun v => i + x.length ≤ v.offset) = visitsBefore none (i + x.length) (s.run x y.head?) y := by
    apply List.filter_eq_self.2
    intro v hv
    exact decide_eq_true (offset_of_mem hv).1
  rw [hfront, hback, List.nil_append]

/-- The code bytes between two offsets. -/
theorem filter_between (i : Nat) (s : State) (x y z : Bytes) :
    (visitsFrom i s (x ++ (y ++ z))).filter
        (fun v => i + x.length ≤ v.offset ∧ v.offset < i + x.length + y.length) =
      visitsBefore z.head? (i + x.length) (s.run x (y ++ z).head?) y := by
  have hboth : (fun v : Visit => decide (i + x.length ≤ v.offset ∧ v.offset < i + x.length + y.length))
      = fun v => decide (v.offset < i + x.length + y.length) && decide (i + x.length ≤ v.offset) := by
    funext v
    rw [Bool.decide_and, Bool.and_comm]
  rw [hboth, ← List.filter_filter, filter_ge, filter_lt]

/-! ### The byte behind a part -/

/-- Does what the scanner makes of the byte depend on the byte behind it? -/
def looksAhead (b : UInt8) : Bool := b == slash || b == star || b == dollar

theorem State.step_next {b : UInt8} (hb : looksAhead b = false) (s : State)
    (next next' : Option UInt8) : s.step b next = s.step b next' := by
  simp only [looksAhead, Bool.or_eq_false_iff] at hb
  obtain ⟨⟨hslash, hstar⟩, hdollar⟩ := hb
  simp only [step, stepCode, stepString, hslash, hstar, hdollar, Bool.false_and]

theorem State.shows_next {b : UInt8} (hb : looksAhead b = false) (s : State)
    (next next' : Option UInt8) : s.shows b next = s.shows b next' := by
  simp only [looksAhead, Bool.or_eq_false_iff] at hb
  simp only [shows, opensComment, hb.1.1, Bool.false_and]

/-- The byte behind a part does not matter when the last byte of the part looks at nothing. -/
theorem visitsBefore_next {x : Bytes} (hx : ∀ b ∈ x.getLast?, looksAhead b = false) (i : Nat)
    (s : State) (next next' : Option UInt8) : visitsBefore next i s x = visitsBefore next' i s x := by
  induction x generalizing i s with
  | nil => rfl
  | cons b x ih =>
    cases x with
    | nil =>
      have hb : looksAhead b = false := hx b rfl
      simp only [visitsBefore, s.shows_next hb _ next']
    | cons c x =>
      rw [visitsBefore, ih (fun b hb => hx b hb)]
      rfl

theorem State.run_next {x : Bytes} (hx : ∀ b ∈ x.getLast?, looksAhead b = false) (s : State)
    (next next' : Option UInt8) : s.run x next = s.run x next' := by
  induction x generalizing s with
  | nil => rfl
  | cons b x ih =>
    cases x with
    | nil =>
      have hb : looksAhead b = false := hx b rfl
      exact step_next hb s _ _
    | cons c x => exact ih (fun b hb => hx b hb) (s.step b (some c))

/-! ### Another depth around the text -/

/-- The outermost of some depths, with `d` added. -/
def raiseLast (d : Int) : List Int → List Int
  | [] => []
  | [e] => [e + d]
  | e :: e' :: more => e :: raiseLast d (e' :: more)

namespace State

/-- The state with `d` added to the depth of the outermost code level. -/
def raise (d : Int) (s : State) : State :=
  match s.outer with
  | [] => { s with depth := s.depth + d }
  | e :: more => { s with outer := raiseLast d (e :: more) }

theorem raise_mode (d : Int) (s : State) : (s.raise d).mode = s.mode := by
  unfold raise
  split <;> rfl

theorem raiseLast_isEmpty (d : Int) (l : List Int) : (raiseLast d l).isEmpty = l.isEmpty := by
  fun_cases raiseLast d l <;> rfl

theorem raise_outer_isEmpty (d : Int) (s : State) : (s.raise d).outer.isEmpty = s.outer.isEmpty := by
  unfold raise
  split
  · rfl
  · rename_i h
    rw [h]
    exact raiseLast_isEmpty d _

theorem shows_raise (d : Int) (s : State) (b : UInt8) (next : Option UInt8) :
    (s.raise d).shows b next = s.shows b next := by
  rw [shows, shows, raise_mode, raise_outer_isEmpty]

theorem depth_raise_of_shows {d : Int} {s : State} {b : UInt8} {next : Option UInt8}
    (h : s.shows b next = true) : (s.raise d).depth = s.depth + d := by
  simp only [shows, Bool.and_eq_true, List.isEmpty_iff] at h
  rw [raise, h.1.1.2]

theorem setMode_raise (d : Int) (s : State) (m : Mode) :
    { s.raise d with mode := m } = { s with mode := m }.raise d := by
  unfold raise
  dsimp only
  split <;> rfl

theorem openBrace_raise (d : Int) (s : State) :
    { s.raise d with depth := (s.raise d).depth + 1 } = { s with depth := s.depth + 1 }.raise d := by
  unfold raise
  dsimp only
  split
  · show State.mk _ (s.depth + d + 1) _ = State.mk _ (s.depth + 1 + d) _
    congr 1
    omega
  · rfl

theorem openSubstitution_raise (d : Int) (s : State) :
    { mode := .code, depth := 0, outer := (s.raise d).depth :: (s.raise d).outer : State }
      = { mode := .code, depth := 0, outer := s.depth :: s.outer : State }.raise d := by
  obtain ⟨mode, depth, outer⟩ := s
  cases outer <;> rfl

theorem closeBrace_raise (d : Int) (s : State) : (s.raise d).closeBrace = s.closeBrace.raise d := by
  obtain ⟨mode, depth, outer⟩ := s
  match outer with
  | [] =>
    simp only [raise, closeBrace]
    congr 1
    omega
  | [e] => by_cases h : depth = 1 <;> simp [raise, raiseLast, closeBrace, h]
  | e :: e' :: more => by_cases h : depth = 1 <;> simp [raise, raiseLast, closeBrace, h]

/-- A step of the scanner does not depend on the depth around the text. -/
theorem step_raise (d : Int) (s : State) (b : UInt8) (next : Option UInt8) :
    (s.raise d).step b next = (s.step b next).raise d := by
  simp only [step, raise_mode]
  cases s.mode with
  | code =>
    simp only [stepCode, apply_ite (raise d), closeBrace_raise, setMode_raise, openBrace_raise]
  | line => simp only [apply_ite (raise d), setMode_raise]
  | opening => exact setMode_raise d s .block
  | block => simp only [apply_ite (raise d), setMode_raise]
  | closing => exact setMode_raise d s .code
  | string q =>
    simp only [stepString, apply_ite (raise d), setMode_raise, openSubstitution_raise]
  | escape q => exact setMode_raise d s (.string q)

theorem run_raise (d : Int) (s : State) (x : Bytes) (next : Option UInt8) :
    (s.raise d).run x next = (s.run x next).raise d := by
  induction x generalizing s with
  | nil => rfl
  | cons b x ih => rw [run_cons, run_cons, step_raise, ih]

end State

/-- The code bytes of a text do not depend on the depth around it, but for that depth itself. -/
theorem visitsBefore_raise (next : Option UInt8) (i : Nat) (d : Int) (s : State) (x : Bytes) :
    visitsBefore next i (s.raise d) x =
      (visitsBefore next i s x).map fun v => { v with depth := v.depth + d } := by
  induction x generalizing i s with
  | nil => rfl
  | cons b x ih =>
    simp only [visitsBefore, State.shows_raise, State.step_raise, ih]
    split
    · rename_i h
      rw [State.depth_raise_of_shows h, List.map_cons]
    · rfl

/-! ### The state at an offset -/

/-- The state in which the scanner arrives at an offset of a text. -/
def stateAt (src : Bytes) (i : Nat) : State := State.start.run (src.take i) (src.drop i).head?

theorem stateAt_append (x y : Bytes) : stateAt (x ++ y) x.length = State.start.run x y.head? := by
  rw [stateAt, List.take_left, List.drop_left]

/-- The scanner goes on from where it arrived. -/
theorem stateAt_add (src : Bytes) (i n : Nat) :
    stateAt src (i + n) =
      (stateAt src i).run ((src.drop i).take n) ((src.drop i).drop n).head? := by
  have hnext : ((src.drop i).take n).head?.or ((src.drop i).drop n).head? = (src.drop i).head? := by
    rw [← List.head?_append, List.take_append_drop]
  rw [stateAt, stateAt, List.take_add, State.run_append, ← List.drop_drop, hnext]

theorem stateAt_succ {src : Bytes} {i : Nat} {b : UInt8} {rest : Bytes} (h : src.drop i = b :: rest) :
    stateAt src (i + 1) = (stateAt src i).step b rest.head? := by
  rw [stateAt_add, h]
  rfl

/-- A code byte stands where the scanner is in code at the outermost level. -/
theorem exists_of_mem {i : Nat} {s : State} {x : Bytes} {v : Visit} (h : v ∈ visitsFrom i s x) :
    ∃ front rest, x = front ++ v.byte :: rest ∧ v.offset = i + front.length ∧
      (s.run front (some v.byte)).shows v.byte rest.head? = true ∧
      (s.run front (some v.byte)).depth = v.depth := by
  induction x generalizing i s with
  | nil => simp [visitsFrom] at h
  | cons b x ih =>
    have hmore : v ∈ visitsFrom (i + 1) (s.step b x.head?) x →
        ∃ front rest, b :: x = front ++ v.byte :: rest ∧ v.offset = i + front.length ∧
          (s.run front (some v.byte)).shows v.byte rest.head? = true ∧
          (s.run front (some v.byte)).depth = v.depth := by
      intro h
      obtain ⟨front, rest, rfl, hoff, hshows, hdepth⟩ := ih h
      have hnext : (front ++ v.byte :: rest).head? = front.head?.or (some v.byte) := by
        rw [List.head?_append]
        rfl
      rw [hnext] at hshows hdepth
      exact ⟨b :: front, rest, rfl, by rw [hoff, List.length_cons]; omega, hshows, hdepth⟩
    simp only [visitsFrom] at h
    split at h
    · rcases List.mem_cons.1 h with rfl | h
      · exact ⟨[], x, rfl, rfl, ‹_›, rfl⟩
      · exact hmore h
    · exact hmore h

/-- A code byte of a text that was scanned from a place on where the scanner is as at the start. -/
theorem stateAt_of_mem {src : Bytes} {k : Nat} {v : Visit} (hk : stateAt src k = State.start)
    (h : v ∈ visits src k) :
    k ≤ v.offset ∧ stateAt src v.offset = ⟨.code, v.depth, []⟩ ∧
      ∃ rest, src.drop v.offset = v.byte :: rest ∧ opensComment v.byte rest.head? = false ∧
        isDelimiter v.byte = false := by
  obtain ⟨front, rest, hsrc, hoff, hshows, hdepth⟩ := exists_of_mem h
  have hdrop : src.drop v.offset = v.byte :: rest := by
    rw [hoff, ← List.drop_drop, hsrc, List.drop_left]
  have hstate : stateAt src v.offset = State.start.run front (some v.byte) := by
    rw [hoff, stateAt_add, hk, hsrc, List.take_left, List.drop_left]
    rfl
  simp only [State.shows, Bool.and_eq_true, beq_iff_eq, List.isEmpty_iff, Bool.not_eq_true'] at hshows
  obtain ⟨⟨⟨hmode, houter⟩, hcomment⟩, hdelim⟩ := hshows
  refine ⟨by omega, ?_, rest, hdrop, hcomment, hdelim⟩
  rw [hstate, ← hdepth, ← hmode, ← houter]

end Spotlight.Scan
