import Spotlight.Proofs.Scan.Grammar

/-!
# The brace that closes a block

A text behind a brace either starts with code and a closing brace, or the scanner meets no brace that closes.
So the brace that closes another is found exactly where the rules have the end of the block.

* `Scan.BlockAt` — code in braces between two offsets of a text;
* `Scan.closes_or_staysOpen` — a text starts with code and a closing brace, or has none that closes;
* `Scan.matchBrace?_of_code` — behind code the closing brace is found;
* `Scan.block_iff_matchBrace?` — a brace is closed exactly where the rules have the end of its block.
-/

namespace Spotlight.Scan

open Bytes

/-! ### A text is code, or stays open -/

/-- The text starts with code and a closing brace. -/
def Closes (s : Bytes) : Prop := ∃ x rest, Code x ∧ s = x ++ rbrace :: rest

/-- The text holds no brace that closes the level of code it is in. -/
def StaysOpen (s : Bytes) : Prop := ∀ (st : State) (i : Nat), Level st → Within st (visitsFrom i st s)

/-- The text starts with the rest of a template. -/
def ClosesTemplate (s : Bytes) : Prop := ∃ x rest, TemplateText x ∧ s = x ++ grave :: rest

/-- Nothing shows behind a grave accent in front of the text. -/
def StaysHidden (s : Bytes) : Prop := ∀ (i : Nat) (d : Int) (o : List Int),
  visitsFrom i ⟨.string grave, d, o⟩ s = []

/-- A string ends, or nothing shows from there on. -/
theorem quoteText_or_hidden {q : UInt8} (hq : q = apostrophe ∨ q = quote) (n : Nat) :
    ∀ s : Bytes, s.length ≤ n →
      (∃ x e rest, QuoteText q x ∧ (e = q ∨ e = lf) ∧ s = x ++ e :: rest) ∨
        ∀ i d o, visitsFrom i ⟨.string q, d, o⟩ s = [] := by
  have hgrave : q ≠ grave := by rcases hq with rfl | rfl <;> decide
  induction n with
  | zero =>
    intro s hs
    obtain rfl := List.eq_nil_of_length_eq_zero (Nat.le_zero.1 hs)
    exact Or.inr fun i d o => rfl
  | succ n ih =>
    intro s hs
    match s with
    | [] => exact Or.inr fun i d o => rfl
    | b :: t =>
      rw [List.length_cons] at hs
      by_cases hend : b = q ∨ b = lf
      · exact Or.inl ⟨[], b, t, .nil, hend, rfl⟩
      rw [not_or] at hend
      by_cases hback : b = backslash
      · subst hback
        match t with
        | [] => exact Or.inr fun i d o => visitsFrom_string_cons i q d o backslash []
        | c :: t =>
          rw [List.length_cons] at hs
          rcases ih t (by omega) with ⟨x, e, rest, hx, he, rfl⟩ | hhide
          · exact Or.inl ⟨backslash :: c :: x, e, rest, .escape hx, he, rfl⟩
          · refine Or.inr fun i d o => ?_
            rw [visitsFrom_string_escape, hhide]
      · rcases ih t (by omega) with ⟨x, e, rest, hx, he, rfl⟩ | hhide
        · exact Or.inl ⟨b :: x, e, rest, .byte hend.1 hback hend.2 hx, he, rfl⟩
        · refine Or.inr fun i d o => ?_
          rw [visitsFrom_string_byte hend.1 hback (fun h => absurd h hend.2) (fun _ h => absurd h hgrave),
            hhide]

/-- A line comment without an end hides what follows. -/
theorem visitsFrom_line_eq_nil {s : Bytes} (hs : lf ∉ s) (i : Nat) (d : Int) (o : List Int) :
    visitsFrom i ⟨.line, d, o⟩ s = [] := by
  induction s generalizing i with
  | nil => rfl
  | cons b s ih =>
    rw [List.mem_cons, not_or] at hs
    have hstep : State.step ⟨.line, d, o⟩ b s.head? = ⟨.line, d, o⟩ := by
      show (if b == lf then _ else _) = _
      rw [if_neg (by simpa using Ne.symm hs.1)]
    rw [visitsFrom_hidden (State.shows_eq_false (by simp) _ _), hstep, ih hs.2]

/-- A block comment ends at the first pair of an asterisk and a slash, or hides what follows. -/
theorem blockComment_or_hidden (s : Bytes) :
    (∃ x rest, ¬ [star, slash] <:+: x ∧ s = x ++ star :: slash :: rest) ∨
      ∀ i d o, visitsFrom i ⟨.block, d, o⟩ s = [] := by
  induction s with
  | nil => exact Or.inr fun i d o => rfl
  | cons b s ih =>
    by_cases hend : b = star ∧ s.head? = some slash
    · obtain ⟨rfl, hhead⟩ := hend
      obtain ⟨rest, rfl⟩ : ∃ rest, s = slash :: rest := by
        cases s with
        | nil => simp at hhead
        | cons c rest => exact ⟨rest, by rw [Option.some.inj hhead]⟩
      exact Or.inl ⟨[], rest, by simp, rfl⟩
    · rcases ih with ⟨x, rest, hx, rfl⟩ | hhide
      · refine Or.inl ⟨b :: x, rest, ?_, rfl⟩
        rw [List.infix_cons_iff, not_or]
        refine ⟨?_, hx⟩
        rintro ⟨t, ht⟩
        obtain ⟨rfl, rfl⟩ := List.cons.inj ht
        exact hend ⟨rfl, rfl⟩
      · refine Or.inr fun i d o => ?_
        have hstep : State.step ⟨.block, d, o⟩ b s.head? = ⟨.block, d, o⟩ := by
          show (if b == star && s.head? == some slash then _ else _) = _
          rw [if_neg (by simpa using hend)]
        rw [visitsFrom_hidden (State.shows_eq_false (by simp) _ _), hstep, hhide]

/-- A text that opens a comment starts with the whole comment, or shows nothing. -/
theorem comment_or_hidden {b : UInt8} {t : Bytes} (h : opensComment b t.head? = true) :
    (∃ a rest, Atom a ∧ b :: t = a ++ rest ∧ rest.length < (b :: t).length) ∨
      ∀ (st : State) (i : Nat), st.mode = .code → visitsFrom i st (b :: t) = [] := by
  simp only [opensComment, Bool.and_eq_true, Bool.or_eq_true, beq_iff_eq] at h
  obtain ⟨rfl, hnext⟩ := h
  rcases hnext with hnext | hnext
  · obtain ⟨t, rfl⟩ : ∃ u, t = slash :: u := by
      cases t with
      | nil => simp at hnext
      | cons c u => exact ⟨u, by rw [Option.some.inj hnext]⟩
    by_cases hlf : lf ∈ t
    · obtain ⟨x, rest, rfl, hx⟩ := List.eq_append_cons_of_mem hlf
      refine Or.inl ⟨slash :: slash :: (x ++ [lf]), rest, .lineComment hx, by simp, ?_⟩
      simp only [List.length_cons, List.length_append]
      omega
    · refine Or.inr fun st i hst => ?_
      have hstep : st.step slash (some slash) = ⟨.line, st.depth, st.outer⟩ := by
        rw [State.step, hst]
        rfl
      rw [visitsFrom_hidden (State.shows_of_opensComment st rfl), List.head?_cons, hstep,
        visitsFrom_line_eq_nil]
      rw [List.mem_cons, not_or]
      exact ⟨by decide, hlf⟩
  · obtain ⟨t, rfl⟩ : ∃ u, t = star :: u := by
      cases t with
      | nil => simp at hnext
      | cons c u => exact ⟨u, by rw [Option.some.inj hnext]⟩
    rcases blockComment_or_hidden t with ⟨x, rest, hx, rfl⟩ | hhide
    · refine Or.inl ⟨slash :: star :: (x ++ [star, slash]), rest, .blockComment hx, by simp, ?_⟩
      simp only [List.length_cons, List.length_append]
      omega
    · refine Or.inr fun st i hst => ?_
      have hstep : st.step slash (some star) = ⟨.opening, st.depth, st.outer⟩ := by
        rw [State.step, hst]
        rfl
      have hblock : State.step ⟨.opening, st.depth, st.outer⟩ star t.head? = ⟨.block, st.depth, st.outer⟩ := rfl
      rw [visitsFrom_hidden (State.shows_of_opensComment st rfl), List.head?_cons, hstep,
        visitsFrom_hidden (State.shows_eq_false (by simp) _ _), hblock, hhide]

/-- A text that opens a string starts with the whole string, or shows nothing, if that is so of the
templates behind it. -/
theorem string_or_hidden {q : UInt8} {t : Bytes} (hq : isDelimiter q = true)
    (ht : ClosesTemplate t ∨ StaysHidden t) :
    (∃ a rest, Atom a ∧ q :: t = a ++ rest ∧ rest.length < (q :: t).length) ∨
      ∀ (st : State) (i : Nat), st.mode = .code → visitsFrom i st (q :: t) = [] := by
  have hquotes : q = grave ∨ q = apostrophe ∨ q = quote := by
    simp only [isDelimiter, Bool.or_eq_true, beq_iff_eq] at hq
    exact hq.symm
  rcases hquotes with rfl | hquote
  · rcases ht with ⟨x, rest, hx, rfl⟩ | hhide
    · refine Or.inl ⟨grave :: (x ++ [grave]), rest, .template hx, by simp, ?_⟩
      simp only [List.length_cons, List.length_append]
      omega
    · refine Or.inr fun st i hst => ?_
      rw [visitsFrom_delimiter hq hst, hhide]
  · rcases quoteText_or_hidden hquote t.length t (Nat.le_refl _) with ⟨x, e, rest, hx, he, rfl⟩ | hhide
    · refine Or.inl ⟨q :: (x ++ [e]), rest, .string hquote hx he, by simp, ?_⟩
      simp only [List.length_cons, List.length_append]
      omega
    · refine Or.inr fun st i hst => ?_
      rw [visitsFrom_delimiter hq hst, hhide]

/-- A text with an atom in front closes or stays open as the text behind the atom does. -/
theorem closes_or_staysOpen_atom {a rest : Bytes} (ha : Atom a) (h : Closes rest ∨ StaysOpen rest) :
    Closes (a ++ rest) ∨ StaysOpen (a ++ rest) := by
  rcases h with ⟨x, more, hx, rfl⟩ | hopen
  · exact Or.inl ⟨a ++ x, more, .atom ha hx, (List.append_assoc a x _).symm⟩
  · refine Or.inr fun st i hst => ?_
    rw [ha.visitsFrom_eq hst.1]
    exact hopen st _ hst

/-- A text that opens a block closes or stays open, if that is so of all shorter texts. -/
theorem closes_or_staysOpen_lbrace {t : Bytes}
    (ih : ∀ u : Bytes, u.length ≤ t.length → Closes u ∨ StaysOpen u) :
    Closes (lbrace :: t) ∨ StaysOpen (lbrace :: t) := by
  rcases ih t (Nat.le_refl _) with ⟨x, rest, hx, rfl⟩ | hopen
  · have hle : rest.length ≤ (x ++ rbrace :: rest).length := by
      simp only [List.length_append, List.length_cons]
      omega
    rcases ih rest hle with ⟨y, more, hy, rfl⟩ | hopen
    · exact Or.inl ⟨lbrace :: (x ++ rbrace :: y), more, .braces hx hy, by simp⟩
    · refine Or.inr fun st i hst => ?_
      obtain ⟨vs, hvs, hwithin⟩ := hx.exists_visitsFrom hst.deeper (y := rbrace :: rest) rfl (i + 1)
      rw [visitsFrom_cons, hst.step_lbrace, hvs, visitsFrom_cons, hst.step_rbrace]
      exact (within_shown (by decide) i _).append
        (hwithin.of_deeper.append ((within_shown_deeper st _ _).append (hopen st _ hst)))
  · refine Or.inr fun st i hst => ?_
    rw [visitsFrom_cons, hst.step_lbrace]
    exact (within_shown (by decide) i _).append (hopen _ (i + 1) hst.deeper).of_deeper

/-- The rest of a template that opens a substitution closes or stays hidden, if that is so of all shorter
texts. -/
theorem closesTemplate_or_staysHidden_substitution {t : Bytes} (hcode : Closes t ∨ StaysOpen t)
    (ih : ∀ u : Bytes, u.length ≤ t.length → ClosesTemplate u ∨ StaysHidden u) :
    ClosesTemplate (dollar :: lbrace :: t) ∨ StaysHidden (dollar :: lbrace :: t) := by
  have henter : ∀ i d o, visitsFrom i ⟨.string grave, d, o⟩ (dollar :: lbrace :: t) =
      visitsFrom (i + 1 + 1) ⟨.code, 1, d :: o⟩ t := by
    intro i d o
    have hdollar : State.stepString ⟨.string grave, d, o⟩ grave dollar (some lbrace) =
        ⟨.code, 0, d :: o⟩ := rfl
    have hbrace : State.step ⟨.code, 0, d :: o⟩ lbrace t.head? = ⟨.code, 1, d :: o⟩ := rfl
    rw [visitsFrom_string_cons, List.head?_cons, hdollar, visitsFrom_hidden (by simp [State.shows]), hbrace]
  have hlevel : ∀ (d : Int) (o : List Int), Level ⟨.code, 1, d :: o⟩ := fun d o =>
    ⟨rfl, Or.inr Int.zero_lt_one⟩
  rcases hcode with ⟨x, rest, hx, rfl⟩ | hopen
  · have hle : rest.length ≤ (x ++ rbrace :: rest).length := by
      simp only [List.length_append, List.length_cons]
      omega
    rcases ih rest hle with ⟨y, more, hy, rfl⟩ | hhide
    · exact Or.inl ⟨dollar :: lbrace :: (x ++ rbrace :: y), more, .substitution hx hy, by simp⟩
    · refine Or.inr fun i d o => ?_
      obtain ⟨vs, hvs, hwithin⟩ := hx.exists_visitsFrom (hlevel d o) (y := rbrace :: rest) rfl (i + 1 + 1)
      have hclose : State.step ⟨.code, 1, d :: o⟩ rbrace rest.head? = ⟨.string grave, d, o⟩ := rfl
      rw [henter, hvs, hwithin.eq_nil (by simp), List.nil_append,
        visitsFrom_hidden (by simp [State.shows]), hclose, hhide]
  · refine Or.inr fun i d o => ?_
    rw [henter]
    exact (hopen _ _ (hlevel d o)).eq_nil (by simp)

/-- **A text starts with code and a closing brace, or has none that closes;** and the same of templates. The
induction is on how much text is left: both kinds of text hold each other. -/
theorem closes_or_staysOpen (n : Nat) : ∀ s : Bytes, s.length ≤ n →
    (Closes s ∨ StaysOpen s) ∧ (ClosesTemplate s ∨ StaysHidden s) := by
  induction n with
  | zero =>
    intro s hs
    obtain rfl := List.eq_nil_of_length_eq_zero (Nat.le_zero.1 hs)
    exact ⟨Or.inr fun st i _ => within_nil st, Or.inr fun i d o => rfl⟩
  | succ n ih =>
    intro s hs
    match s with
    | [] => exact ⟨Or.inr fun st i _ => within_nil st, Or.inr fun i d o => rfl⟩
    | b :: t =>
      rw [List.length_cons] at hs
      have ihle : ∀ u : Bytes, u.length ≤ t.length →
          (Closes u ∨ StaysOpen u) ∧ (ClosesTemplate u ∨ StaysHidden u) :=
        fun u hu => ih u (by omega)
      constructor
      · -- an atom at the head of the text, or everything hidden
        have hatom : ((∃ a rest, Atom a ∧ b :: t = a ++ rest ∧ rest.length < (b :: t).length) ∨
            ∀ (st : State) (i : Nat), st.mode = .code → visitsFrom i st (b :: t) = []) →
            Closes (b :: t) ∨ StaysOpen (b :: t) := by
          rintro (⟨a, rest, ha, heq, hlt⟩ | hhide)
          · rw [heq]
            rw [List.length_cons] at hlt
            exact closes_or_staysOpen_atom ha (ihle rest (by omega)).1
          · refine Or.inr fun st i hst => ?_
            rw [hhide st i hst.1]
            exact within_nil st
        by_cases hcomment : opensComment b t.head? = true
        · exact hatom (comment_or_hidden hcomment)
        by_cases hdelim : isDelimiter b = true
        · exact hatom (string_or_hidden hdelim (ihle t (Nat.le_refl _)).2)
        by_cases hopen : b = lbrace
        · subst hopen
          exact closes_or_staysOpen_lbrace fun u hu => (ihle u hu).1
        by_cases hclose : b = rbrace
        · subst hclose
          exact Or.inl ⟨[], t, .nil, rfl⟩
        rw [Bool.not_eq_true] at hcomment hdelim
        rcases (ihle t (Nat.le_refl _)).1 with ⟨x, rest, hx, rfl⟩ | hstays
        · have hnext : opensComment b x.head? = false := by
            cases x with
            | nil =>
              rw [opensComment]
              exact Bool.and_false (b == slash)
            | cons c x => exact hcomment
          exact Or.inl ⟨b :: x, rest, .byte hdelim hopen hclose hnext hx, rfl⟩
        · refine Or.inr fun st i hst => ?_
          rw [visitsFrom_cons, State.step_plain hst.1 hdelim hopen hclose hcomment]
          exact (within_shown hclose i _).append (hstays st _ hst)
      · by_cases hend : b = grave
        · subst hend
          exact Or.inl ⟨[], t, .nil, rfl⟩
        by_cases hback : b = backslash
        · subst hback
          match t with
          | [] => exact Or.inr fun i d o => visitsFrom_string_cons i grave d o backslash []
          | c :: t =>
            rcases (ihle t (by rw [List.length_cons]; omega)).2 with ⟨x, rest, hx, rfl⟩ | hhide
            · exact Or.inl ⟨backslash :: c :: x, rest, .escape hx, rfl⟩
            · refine Or.inr fun i d o => ?_
              rw [visitsFrom_string_escape, hhide]
        by_cases hopen : b = dollar ∧ t.head? = some lbrace
        · obtain ⟨rfl, hhead⟩ := hopen
          obtain ⟨t, rfl⟩ : ∃ u, t = lbrace :: u := by
            cases t with
            | nil => simp at hhead
            | cons c u => exact ⟨u, by rw [Option.some.inj hhead]⟩
          have ihu : ∀ u : Bytes, u.length ≤ t.length →
              (Closes u ∨ StaysOpen u) ∧ (ClosesTemplate u ∨ StaysHidden u) :=
            fun u hu => ihle u (by rw [List.length_cons]; omega)
          exact closesTemplate_or_staysHidden_substitution (ihu t (Nat.le_refl _)).1 fun u hu => (ihu u hu).2
        rcases (ihle t (Nat.le_refl _)).2 with ⟨x, rest, hx, rfl⟩ | hhide
        · refine Or.inl ⟨b :: x, rest, .byte hend hback ?_ hx, rfl⟩
          rintro ⟨hb, hhead⟩
          cases x with
          | nil => simp at hhead
          | cons c x => exact hopen ⟨hb, hhead⟩
        · refine Or.inr fun i d o => ?_
          rw [visitsFrom_string_byte hend hback (fun _ => rfl) (fun hb _ hhead => hopen ⟨hb, hhead⟩), hhide]

/-! ### The brace that closes another -/

/-- Code in braces from offset `i` of a text up to offset `e`. -/
def BlockAt (src : Bytes) (i e : Nat) : Prop :=
  i ≤ e ∧ e ≤ src.length ∧ ∃ x, Code x ∧ (src.drop i).take (e - i) = lbrace :: (x ++ [rbrace])

section

variable {src : Bytes} {start : Nat}

/-- Behind code in braces stands the brace that is found. -/
theorem matchBrace?_of_code {x rest : Bytes} (hx : Code x)
    (h : src.drop start = lbrace :: (x ++ rbrace :: rest)) :
    matchBrace? src start = some (start + x.length + 2) := by
  have hlevel : Level State.start := ⟨rfl, Or.inl rfl⟩
  obtain ⟨vs, hvs, hwithin⟩ := hx.exists_visitsFrom hlevel.deeper (y := rbrace :: rest) rfl (start + 1)
  have hvisits : visits src start = ⟨start, lbrace, 0⟩ :: (vs ++
      ⟨start + 1 + x.length, rbrace, 1⟩ :: visitsFrom (start + 1 + x.length + 1) State.start rest) := by
    have hlast : visitsFrom (start + 1 + x.length) { State.start with depth := State.start.depth + 1 }
        (rbrace :: rest) = ⟨start + 1 + x.length, rbrace, 1⟩ ::
          visitsFrom (start + 1 + x.length + 1) State.start rest := by
      rw [visitsFrom_cons, hlevel.step_rbrace]
      rfl
    rw [visits, h, visitsFrom_cons, hlevel.step_lbrace, hvs, hlast]
    rfl
  -- the braces in between stand deeper than the one that closes
  have hdeeper : ∀ v ∈ vs, ¬ (v.byte == rbrace && v.depth == 1) = true := by
    intro v hv hfound
    rw [Bool.and_eq_true, beq_iff_eq, beq_iff_eq] at hfound
    have hlt : (1 : Int) < v.depth := (hwithin v hv).2 hfound.1
    omega
  have hfind : (⟨start, lbrace, 0⟩ :: (vs ++ ⟨start + 1 + x.length, rbrace, 1⟩ ::
      visitsFrom (start + 1 + x.length + 1) State.start rest)).find?
        (fun v : Visit => v.byte == rbrace && v.depth == 1) = some ⟨start + 1 + x.length, rbrace, 1⟩ := by
    rw [List.find?_cons_of_neg Bool.false_ne_true, List.find?_append, List.find?_eq_none.2 hdeeper, Option.none_or,
      List.find?_cons_of_pos rfl]
  rw [matchBrace?, braceEnd?, hvisits, hfind]
  show some (start + 1 + x.length + 1) = _
  congr 1
  omega

/-- A brace that is found closes code in braces. -/
theorem exists_code_of_matchBrace? {e : Nat} (hstart : src[start]? = some lbrace)
    (h : matchBrace? src start = some e) :
    ∃ x rest, Code x ∧ src.drop start = lbrace :: (x ++ rbrace :: rest) := by
  have hdrop := drop_eq_cons hstart
  rcases (closes_or_staysOpen _ (src.drop (start + 1)) (Nat.le_refl _)).1 with ⟨x, rest, hx, heq⟩ | hopen
  · exact ⟨x, rest, hx, by rw [hdrop, heq]⟩
  · have hlevel : Level State.start := ⟨rfl, Or.inl rfl⟩
    obtain ⟨v, hv, hbyte, hdepth, -⟩ := exists_of_matchBrace? h
    have hwithin := hopen _ (start + 1) hlevel.deeper
    rw [visits, hdrop, visitsFrom_cons, hlevel.step_lbrace, List.mem_append] at hv
    rcases hv with hv | hv
    · obtain rfl : v = ⟨start, lbrace, 0⟩ := List.mem_singleton.1 hv
      exact absurd hbyte (show lbrace ≠ rbrace by decide)
    · have hlt : (1 : Int) < v.depth := (hwithin v hv).2 hbyte
      omega

theorem blockAt_iff {e : Nat} : BlockAt src start e ↔
    ∃ x rest, Code x ∧ src.drop start = lbrace :: (x ++ rbrace :: rest) ∧ e = start + x.length + 2 := by
  constructor
  · rintro ⟨hle, hend, x, hx, htake⟩
    have hlen := congrArg List.length htake
    simp only [List.length_take, List.length_drop, List.length_cons, List.length_append,
      List.length_nil] at hlen
    refine ⟨x, src.drop e, hx, ?_, by omega⟩
    have hsplit := List.take_append_drop (e - start) (src.drop start)
    rw [htake, List.drop_drop, Nat.add_sub_cancel' hle] at hsplit
    rw [← hsplit]
    simp
  · rintro ⟨x, rest, hx, hdrop, rfl⟩
    have hlen := congrArg List.length hdrop
    simp only [List.length_drop, List.length_cons, List.length_append] at hlen
    refine ⟨by omega, by omega, x, hx, ?_⟩
    have hcut : start + x.length + 2 - start = (lbrace :: (x ++ [rbrace])).length := by
      simp only [List.length_cons, List.length_append, List.length_nil]
      omega
    have hassoc : lbrace :: (x ++ rbrace :: rest) = (lbrace :: (x ++ [rbrace])) ++ rest := by simp
    rw [hdrop, hcut, hassoc, List.take_left]

/-- **A brace is closed exactly where the rules have the end of its block.** There is at most one such
place, and without one no brace is found. -/
theorem block_iff_matchBrace? (h : src[start]? = some lbrace) :
    (∀ e, matchBrace? src start = some e ↔ BlockAt src start e) ∧
      (matchBrace? src start = none ↔ ¬ ∃ e, BlockAt src start e) ∧
      ∀ e e', BlockAt src start e → BlockAt src start e' → e = e' := by
  have hiff : ∀ e, matchBrace? src start = some e ↔ BlockAt src start e := by
    intro e
    constructor
    · intro hfound
      obtain ⟨x, rest, hx, hdrop⟩ := exists_code_of_matchBrace? h hfound
      rw [matchBrace?_of_code hx hdrop] at hfound
      exact blockAt_iff.2 ⟨x, rest, hx, hdrop, (Option.some.inj hfound).symm⟩
    · intro hblock
      obtain ⟨x, rest, hx, hdrop, rfl⟩ := blockAt_iff.1 hblock
      exact matchBrace?_of_code hx hdrop
  refine ⟨hiff, ?_, ?_⟩
  · rw [Option.eq_none_iff_forall_ne_some, not_exists]
    exact forall_congr' fun e => not_congr (hiff e)
  · intro e e' he he'
    exact Option.some.inj (((hiff e).2 he).symm.trans ((hiff e').2 he'))

end

/-- A block that holds a template, which holds a block with another template and a comment; and a block that
no brace closes, because the last one stands in a template. -/
theorem block_iff_matchBrace?_templates :
    (Bytes.ofString "f \x7b `a$\x7b \x7bb: `\x7d`\x7d /*`\x7d*/ \x7d` \x7d \x7d")[2]? = some lbrace ∧
      BlockAt "f \x7b `a$\x7b \x7bb: `\x7d`\x7d /*`\x7d*/ \x7d` \x7d \x7d" 2 29 ∧
      (∀ e, BlockAt "f \x7b `a$\x7b \x7bb: `\x7d`\x7d /*`\x7d*/ \x7d` \x7d \x7d" 2 e → e = 29) ∧
      ¬ ∃ e, BlockAt "\x7b `$\x7b \x7d \x7d" 0 e := by
  have hbrace : (Bytes.ofString "f \x7b `a$\x7b \x7bb: `\x7d`\x7d /*`\x7d*/ \x7d` \x7d \x7d")[2]? = some lbrace :=
    rfl
  have hopen : (Bytes.ofString "\x7b `$\x7b \x7d \x7d")[0]? = some lbrace := rfl
  have hblock := ((block_iff_matchBrace? hbrace).1 29).1 rfl
  exact ⟨hbrace, hblock, fun e he => (block_iff_matchBrace? hbrace).2.2 e 29 he hblock,
    (block_iff_matchBrace? hopen).2.1.1 rfl⟩

end Spotlight.Scan
