import Spotlight.Proofs.Scan.Grammar

/-!
# Levels of code

A substitution in a template is code again, at a level of its own. The scanner counts the braces of the innermost
level and keeps the depths of the levels around it.

* `Scan.State.base` — the depth of the outermost level. Code bytes alone change it (`Scan.State.base_step`), so the
  depth at a code byte is told by the braces in front of it (`Scan.depth_eq_of_visitsFrom`);
* `Scan.pairwise_visitsFrom` — code bytes stand in the order of their offsets;
* `Scan.visitsFrom_of_away` — away from the outermost level nothing shows until the scanner is back;
* `Scan.returnFrom?_inside` — a substitution is scanned like a text of its own, up to the brace that closes it;
* `Scan.returnFrom?_string`, `Scan.stringEnd?_bounds` — what a byte of a string does, and where a string ends.
-/

namespace Spotlight.Scan

open Bytes

/-! ### The outermost level of code -/

/-- What a code byte adds to the brace depth. -/
def weight (b : UInt8) : Int := if b == lbrace then 1 else if b == rbrace then -1 else 0

namespace State

/-- The brace depth of the outermost level of code. -/
def base (s : State) : Int := s.outer.getLast?.getD s.depth

theorem base_of_outer_eq_nil {s : State} (h : s.outer = []) : s.base = s.depth := by
  rw [base, h]
  rfl

theorem base_setMode (s : State) (m : Mode) : { s with mode := m }.base = s.base := rfl

/-- A substitution hides the level of code around it, and keeps its depth. -/
theorem base_cons (m m' : Mode) (d e : Int) (o : List Int) : (State.mk m d (e :: o)).base = (State.mk m' e o).base := by
  simp only [base, List.getLast?_cons, Option.getD_some]

theorem base_closeBrace {s : State} (h : s.outer ≠ []) : s.closeBrace.base = s.base := by
  obtain ⟨mode, depth, outer⟩ := s
  match outer, h with
  | e :: outer, _ =>
    rw [closeBrace]
    dsimp only
    split
    · exact (base_cons mode _ depth e outer).symm
    · rfl

theorem base_stepCode {s : State} (h : s.outer ≠ []) (b : UInt8) (next : Option UInt8) :
    (s.stepCode b next).base = s.base := by
  have hopen : { s with depth := s.depth + 1 }.base = s.base := by
    obtain ⟨mode, depth, outer⟩ := s
    match outer, h with
    | e :: outer, _ => rfl
  simp only [stepCode, apply_ite base, base_setMode, hopen, base_closeBrace h, ite_self]

theorem base_stepString (s : State) (q b : UInt8) (next : Option UInt8) : (s.stepString q b next).base = s.base := by
  have hopen : (State.mk .code 0 (s.depth :: s.outer)).base = s.base := base_cons .code s.mode 0 s.depth s.outer
  simp only [stepString, apply_ite base, base_setMode, hopen, ite_self]

/-- At the outermost level a code byte changes the depth by its weight. -/
theorem step_outermost {b : UInt8} {next : Option UInt8} (hcomment : opensComment b next = false)
    (hdelim : isDelimiter b = false) (d : Int) :
    (State.mk .code d []).step b next = ⟨.code, d + weight b, []⟩ := by
  by_cases hopen : b = lbrace
  · subst hopen
    rfl
  by_cases hclose : b = rbrace
  · subst hclose
    rfl
  have hweight : weight b = 0 := by rw [weight, beq_false_of_ne hopen, beq_false_of_ne hclose]; rfl
  rw [step_plain rfl hdelim hopen hclose hcomment, hweight, Int.add_zero]

theorem base_step_outermost (d : Int) (b : UInt8) (next : Option UInt8) :
    ((State.mk .code d []).step b next).base =
      d + if (State.mk .code d []).shows b next then weight b else 0 := by
  by_cases hcomment : opensComment b next = true
  · have hstay : ((State.mk .code d []).step b next).base = d := by
      simp only [opensComment, Bool.and_eq_true, Bool.or_eq_true, beq_iff_eq] at hcomment
      obtain ⟨rfl, rfl | rfl⟩ := hcomment <;> rfl
    rw [hstay, shows_of_opensComment _ hcomment]
    exact (Int.add_zero d).symm
  rw [Bool.not_eq_true] at hcomment
  by_cases hdelim : isDelimiter b = true
  · have hhide : (State.mk .code d []).shows b next = false := by simp [shows, hdelim]
    have hslash : b ≠ slash := by
      rintro rfl
      exact absurd hdelim (by decide)
    have hstay : (State.mk .code d []).step b next = ⟨.string b, d, []⟩ := by
      simp [step, stepCode, hslash, hdelim]
    rw [hhide, hstay]
    exact (Int.add_zero d).symm
  rw [Bool.not_eq_true] at hdelim
  have hshows : (State.mk .code d []).shows b next = true := by simp [shows, hcomment, hdelim]
  rw [hshows, if_pos rfl, step_outermost hcomment hdelim]
  rfl

/-- Nothing but a code byte changes the depth of the outermost level, and that by its own weight. -/
theorem base_step (s : State) (b : UInt8) (next : Option UInt8) :
    (s.step b next).base = s.base + if s.shows b next then weight b else 0 := by
  by_cases hcode : s.mode = .code
  · by_cases houter : s.outer = []
    · obtain ⟨mode, depth, outer⟩ := s
      obtain ⟨rfl, rfl⟩ : mode = .code ∧ outer = [] := ⟨hcode, houter⟩
      exact base_step_outermost depth b next
    · have hhide : s.shows b next = false := by simp [shows, houter]
      rw [hhide, step, hcode]
      simpa using base_stepCode houter b next
  · rw [shows_eq_false hcode, if_neg Bool.false_ne_true, Int.add_zero, step]
    split
    · contradiction
    · split <;> rfl
    · rfl
    · split <;> rfl
    · rfl
    · exact base_stepString s _ b next
    · rfl

end State

/-! ### Depths count braces -/

/-- How many more braces open than close among some code bytes. -/
def balance (vs : List Visit) : Int :=
  (vs.countP (·.byte == lbrace) : Int) - vs.countP (·.byte == rbrace)

theorem balance_cons (v : Visit) (vs : List Visit) : balance (v :: vs) = weight v.byte + balance vs := by
  have hone : (v.byte == lbrace) = true → (v.byte == rbrace) = false := by
    rw [beq_iff_eq]
    intro hopen
    rw [hopen]
    rfl
  simp only [balance, weight, List.countP_cons]
  split
  · rename_i hopen
    rw [hone hopen]
    push_cast
    omega
  · split <;> push_cast <;> omega

/-- The depth at a code byte is told by the braces in front of it. -/
theorem depth_eq_of_visitsFrom {front back : List Visit} {v : Visit} {i : Nat} {s : State} {x : Bytes}
    (h : visitsFrom i s x = front ++ v :: back) : v.depth = s.base + balance front := by
  -- what the depth of the outermost level gains on the way is the balance of the bytes shown so far
  induction x generalizing front i s with
  | nil => simp [visitsFrom] at h
  | cons b x ih =>
    rw [visitsFrom] at h
    have hbase := s.base_step b x.head?
    split at h
    · rename_i hshows
      rw [hshows, if_pos rfl] at hbase
      have houter : s.outer = [] := by
        simp only [State.shows, Bool.and_eq_true, List.isEmpty_iff] at hshows
        exact hshows.1.1.2
      cases front with
      | nil =>
        obtain ⟨rfl, -⟩ := List.cons.inj h
        rw [State.base_of_outer_eq_nil houter]
        exact (Int.add_zero s.depth).symm
      | cons w front =>
        obtain ⟨rfl, hrest⟩ := List.cons.inj h
        rw [ih hrest, hbase, balance_cons, Int.add_assoc]
    · rename_i hhide
      rw [if_neg hhide, Int.add_zero] at hbase
      rw [ih h, hbase]

/-- Code bytes stand in the order of their offsets. -/
theorem pairwise_visitsFrom (i : Nat) (s : State) (x : Bytes) :
    (visitsFrom i s x).Pairwise fun v w => v.offset < w.offset := by
  induction x generalizing i s with
  | nil => exact List.Pairwise.nil
  | cons b x ih =>
    rw [visitsFrom]
    split
    · refine List.pairwise_cons.2 ⟨fun w hw => ?_, ih _ _⟩
      rw [visitsFrom_eq] at hw
      exact (offset_of_mem hw).1
    · exact ih _ _

/-! ### Back in the outermost level -/

theorem returnFrom?_bounds {i j : Nat} {s : State} {x : Bytes} (h : returnFrom? i s x = some j) :
    i ≤ j ∧ j < i + x.length := by
  induction x generalizing i s with
  | nil => simp [returnFrom?] at h
  | cons b x ih =>
    rw [List.length_cons]
    rw [returnFrom?] at h
    split at h
    · obtain rfl := Option.some.inj h
      omega
    · have := ih h
      omega

/-- The depth around a text does not matter for where the scanner gets back. -/
theorem returnFrom?_raise (d : Int) (i : Nat) (s : State) (x : Bytes) :
    returnFrom? i (s.raise d) x = returnFrom? i s x := by
  induction x generalizing i s with
  | nil => rfl
  | cons b x ih =>
    rw [returnFrom?, returnFrom?, State.step_raise, State.raise_mode, State.raise_outer_isEmpty, ih]

/-- Away from the outermost level of code no byte shows. -/
theorem State.shows_of_away {s : State} (h : (s.mode == .code && s.outer.isEmpty) = false) (b : UInt8)
    (next : Option UInt8) : s.shows b next = false := by
  rw [shows, h]
  rfl

theorem State.eq_of_back {s : State} (h : (s.mode == .code && s.outer.isEmpty) = true) :
    s = ⟨.code, s.base, []⟩ := by
  obtain ⟨mode, depth, outer⟩ := s
  simp only [Bool.and_eq_true, beq_iff_eq, List.isEmpty_iff] at h
  obtain ⟨rfl, rfl⟩ := h
  rfl

/-- Nothing shows until the scanner is back in the outermost level of code. There it goes on as code, at the
depth it left. -/
theorem visitsFrom_of_away {s : State} (h : (s.mode == .code && s.outer.isEmpty) = false) (i : Nat) (x : Bytes) :
    visitsFrom i s x = match returnFrom? i s x with
      | none => []
      | some j => visitsFrom (j + 1) ⟨.code, s.base, []⟩ (x.drop (j + 1 - i)) := by
  -- until then every state is away from the outermost level, and none of its bytes shows or changes the depth
  induction x generalizing i s with
  | nil => rfl
  | cons b x ih =>
    have hbase : (s.step b x.head?).base = s.base := by
      rw [s.base_step, State.shows_of_away h, if_neg Bool.false_ne_true, Int.add_zero]
    rw [visitsFrom_hidden (State.shows_of_away h b _), returnFrom?]
    by_cases hback : ((s.step b x.head?).mode == .code && (s.step b x.head?).outer.isEmpty) = true
    · rw [if_pos hback]
      have hcut : (b :: x).drop (i + 1 - i) = x := by rw [Nat.add_sub_cancel_left, List.drop_one, List.tail_cons]
      rw [State.eq_of_back hback, hbase]
      dsimp only
      rw [hcut]
    · rw [if_neg hback, ih (Bool.eq_false_iff.2 hback), hbase]
      cases hret : returnFrom? (i + 1) (s.step b x.head?) x with
      | none => rfl
      | some j =>
        have hle := (returnFrom?_bounds hret).1
        have hcut : j + 1 - i = j + 1 - (i + 1) + 1 := by omega
        dsimp only
        rw [hcut, List.drop_succ_cons]

/-! ### In a substitution -/

/-- The state with a substitution around it, in a template at depth `d`. -/
def State.inside (d : Int) (s : State) : State := { s with outer := s.outer ++ [d] }

namespace State

theorem inside_mode (d : Int) (s : State) : (s.inside d).mode = s.mode := rfl

theorem setMode_inside (d : Int) (s : State) (m : Mode) :
    { s.inside d with mode := m } = { s with mode := m }.inside d := rfl

/-- Every closing brace but the one at depth one of the outermost level is the same inside a substitution. -/
theorem closeBrace_inside (d : Int) {s : State} (h : s.outer = [] → s.depth ≠ 1) :
    (s.inside d).closeBrace = s.closeBrace.inside d := by
  obtain ⟨mode, depth, outer⟩ := s
  match outer with
  | [] =>
    have hdepth : depth ≠ 1 := h rfl
    simp [inside, closeBrace, hdepth]
  | e :: more => by_cases h : depth = 1 <;> simp [inside, closeBrace, h]

/-- But for the brace that closes it, a substitution is scanned like a text of its own. -/
theorem step_inside (d : Int) {s : State} {b : UInt8} (next : Option UInt8)
    (h : s.mode = .code → s.outer = [] → b = rbrace → s.depth ≠ 1) :
    (s.inside d).step b next = (s.step b next).inside d := by
  simp only [step, inside_mode]
  cases hmode : s.mode with
  | code =>
    by_cases hclose : b = rbrace
    · subst hclose
      exact closeBrace_inside d fun houter => h hmode houter rfl
    · have hopen : { s.inside d with depth := (s.inside d).depth + 1 } =
          { s with depth := s.depth + 1 }.inside d := rfl
      simp only [stepCode, beq_false_of_ne hclose, Bool.false_eq_true, if_false, apply_ite (inside d), setMode_inside,
        hopen]
  | line => simp only [apply_ite (inside d), setMode_inside]
  | opening => rfl
  | block => simp only [apply_ite (inside d), setMode_inside]
  | closing => rfl
  | string q =>
    simp only [stepString, apply_ite (inside d), setMode_inside]
    rfl
  | escape q => rfl

end State

theorem braceEnd?_cons (v : Visit) (vs : List Visit) :
    braceEnd? (v :: vs) = if v.byte == rbrace && v.depth == 1 then some (v.offset + 1) else braceEnd? vs := by
  rw [braceEnd?, List.find?_cons]
  split
  · rename_i h
    rw [h]
    rfl
  · rename_i h
    rw [h]
    rfl

theorem braceEnd?_bounds {i e : Nat} {s : State} {x : Bytes} (h : braceEnd? (visitsFrom i s x) = some e) : i < e := by
  obtain ⟨v, hv, rfl⟩ := Option.map_eq_some_iff.1 h
  rw [visitsFrom_eq] at hv
  have := (offset_of_mem (List.mem_of_find?_eq_some hv)).1
  omega

/-- **A substitution ends at its closing brace.** There the template around it goes on, and without such a brace the
scanner does not get out of the substitution. -/
theorem returnFrom?_inside (d : Int) (i : Nat) (s : State) (x : Bytes) :
    returnFrom? i (s.inside d) x =
      (braceEnd? (visitsFrom i s x)).bind fun e => returnFrom? e ⟨.string grave, d, []⟩ (x.drop (e - i)) := by
  induction x generalizing i s with
  | nil => rfl
  | cons b x ih =>
    rw [visitsFrom, returnFrom?]
    by_cases hlast : s.shows b x.head? = true ∧ b = rbrace ∧ s.depth = 1
    · obtain ⟨hshows, rfl, hdepth⟩ := hlast
      have hclose : (s.inside d).step rbrace x.head? = ⟨.string grave, d, []⟩ := by
        obtain ⟨mode, depth, outer⟩ := s
        simp only [State.shows, Bool.and_eq_true, beq_iff_eq, List.isEmpty_iff] at hshows
        obtain ⟨⟨⟨rfl, rfl⟩, -⟩, -⟩ := hshows
        obtain rfl : depth = 1 := hdepth
        rfl
      have hcut : (rbrace :: x).drop (i + 1 - i) = x := by
        rw [Nat.add_sub_cancel_left, List.drop_one, List.tail_cons]
      rw [if_pos hshows, hclose, braceEnd?_cons, hdepth, if_neg (by simp)]
      show _ = returnFrom? (i + 1) ⟨.string grave, d, []⟩ ((rbrace :: x).drop (i + 1 - i))
      rw [hcut]
    · have hstep : (s.inside d).step b x.head? = (s.step b x.head?).inside d := by
        refine State.step_inside d _ fun hmode houter hclose hdepth => hlast ⟨?_, hclose, hdepth⟩
        subst hclose
        rw [State.shows, hmode, houter]
        rfl
      have haway : ((s.step b x.head?).inside d).outer.isEmpty = false := by simp [State.inside]
      have hskip : braceEnd? (if s.shows b x.head? then
          ⟨i, b, s.depth⟩ :: visitsFrom (i + 1) (s.step b x.head?) x else visitsFrom (i + 1) (s.step b x.head?) x) =
          braceEnd? (visitsFrom (i + 1) (s.step b x.head?) x) := by
        split
        · rename_i hshows
          rw [braceEnd?_cons, if_neg]
          rw [Bool.and_eq_true, beq_iff_eq, beq_iff_eq]
          exact fun hfound => hlast ⟨hshows, hfound⟩
        · rfl
      rw [hstep, haway, Bool.and_false, if_neg Bool.false_ne_true, ih, hskip]
      cases hend : braceEnd? (visitsFrom (i + 1) (s.step b x.head?) x) with
      | none => rfl
      | some e =>
        have hlt := braceEnd?_bounds hend
        have hcut : e - i = e - (i + 1) + 1 := by omega
        rw [Option.bind_some, Option.bind_some, hcut, List.drop_succ_cons]

/-! ### The end of a string -/

theorem returnFrom?_escape (i : Nat) (q : UInt8) (x : Bytes) :
    returnFrom? i { mode := .escape q } x = returnFrom? (i + 1) { mode := .string q } (x.drop 1) := by
  cases x with
  | nil => rfl
  | cons b x => rfl

/-- What a byte of a string does, in the order in which the scanner asks. -/
theorem returnFrom?_string (i : Nat) (q b : UInt8) (x : Bytes) :
    returnFrom? i { mode := .string q } (b :: x) =
      if b == backslash then returnFrom? (i + 1 + 1) { mode := .string q } (x.drop 1)
      else if b == q then some i
      else if b == lf && q != grave then some i
      else if b == dollar && q == grave && x.head? == some lbrace then
        (braceEnd? (visitsFrom (i + 1) .start x)).bind fun e =>
          returnFrom? e { mode := .string grave } (x.drop (e - (i + 1)))
      else returnFrom? (i + 1) { mode := .string q } x := by
  have hround : ∀ s', State.stepString { mode := .string q } q b x.head? = s' →
      returnFrom? i { mode := .string q } (b :: x) =
        if s'.mode == .code && s'.outer.isEmpty then some i else returnFrom? (i + 1) s' x := by
    rintro s' rfl
    rfl
  rw [State.stepString] at hround
  by_cases hback : (b == backslash) = true
  · rw [if_pos hback] at hround ⊢
    rw [hround _ rfl]
    exact returnFrom?_escape (i + 1) q x
  rw [if_neg hback] at hround ⊢
  by_cases hend : (b == q) = true
  · rw [if_pos hend] at hround ⊢
    exact hround _ rfl
  rw [if_neg hend] at hround ⊢
  by_cases hline : (b == lf && q != grave) = true
  · rw [if_pos hline] at hround ⊢
    exact hround _ rfl
  rw [if_neg hline] at hround ⊢
  by_cases hopen : (b == dollar && q == grave && x.head? == some lbrace) = true
  · rw [if_pos hopen] at hround ⊢
    rw [hround _ rfl]
    exact returnFrom?_inside 0 (i + 1) .start x
  · rw [if_neg hopen] at hround ⊢
    exact hround _ rfl

/-- The end of a string is its delimiter, behind the one that opens it, or the last byte of the text. -/
theorem stringEnd?_bounds {src : Bytes} {start e : Nat} (h : stringEnd? src start = some e) :
    start ≤ e ∧ e ≤ src.length - 1 ∧ (start < e ∨ start = src.length - 1) := by
  rw [stringEnd?] at h
  split at h
  · simp at h
  · rename_i q rest hdrop
    have hlen := congrArg List.length hdrop
    rw [List.length_drop, List.length_cons] at hlen
    obtain rfl := Option.some.inj h
    cases hret : returnFrom? (start + 1) { mode := .string q } rest with
    | none =>
      rw [Option.getD_none]
      omega
    | some j =>
      have := returnFrom?_bounds hret
      rw [Option.getD_some]
      omega

end Spotlight.Scan
