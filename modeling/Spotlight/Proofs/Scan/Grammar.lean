import Spotlight.Proofs.Scan.Passage

/-!
# The grammar of code in braces

The scanner reads code byte by byte, with a stack of open substitutions. What it takes for code in braces is
said here by rules, without a scanner: code is a sequence of plain bytes, comments, strings, templates and
blocks, and a substitution in a template is a block again.

* `Scan.Code`, `Scan.TemplateText`, `Scan.Atom` — the rules;
* `Scan.Atom.visitsFrom_eq` — comments, strings and templates show no byte and change nothing;
* `Scan.Code.exists_visitsFrom` — a closing brace in code stands deeper than the code itself.
-/

namespace Spotlight.Scan

open Bytes

/-! ### The rules -/

/-- What stands between two quotes `q`: pairs of a backslash and any byte, and bytes other than the quote,
the backslash and the line feed. -/
inductive QuoteText (q : UInt8) : Bytes → Prop
  | nil : QuoteText q []
  | escape {b : UInt8} {x : Bytes} : QuoteText q x → QuoteText q (backslash :: b :: x)
  | byte {b : UInt8} {x : Bytes} : b ≠ q → b ≠ backslash → b ≠ lf → QuoteText q x → QuoteText q (b :: x)

mutual

/-- Code whose braces match. A slash in front of a slash or an asterisk opens a comment, so it is no byte
of its own. What follows code is a closing brace or parenthesis, so the last byte opens no comment. -/
inductive Code : Bytes → Prop
  | nil : Code []
  | byte {b : UInt8} {x : Bytes} : isDelimiter b = false → b ≠ lbrace → b ≠ rbrace →
      opensComment b x.head? = false → Code x → Code (b :: x)
  | atom {a x : Bytes} : Atom a → Code x → Code (a ++ x)
  | braces {x y : Bytes} : Code x → Code y → Code (lbrace :: (x ++ rbrace :: y))

/-- What stands between the grave accents of a template: pairs of a backslash and any byte, substitutions,
and other bytes. -/
inductive TemplateText : Bytes → Prop
  | nil : TemplateText []
  | escape {b : UInt8} {x : Bytes} : TemplateText x → TemplateText (backslash :: b :: x)
  | substitution {x y : Bytes} : Code x → TemplateText y →
      TemplateText (dollar :: lbrace :: (x ++ rbrace :: y))
  | byte {b : UInt8} {x : Bytes} : b ≠ grave → b ≠ backslash →
      ¬ (b = dollar ∧ x.head? = some lbrace) → TemplateText x → TemplateText (b :: x)

/-- A comment up to its end, a string or a template. A line feed ends a string, too. -/
inductive Atom : Bytes → Prop
  | lineComment {x : Bytes} : lf ∉ x → Atom (slash :: slash :: (x ++ [lf]))
  | blockComment {x : Bytes} : ¬ [star, slash] <:+: x → Atom (slash :: star :: (x ++ [star, slash]))
  | string {q e : UInt8} {x : Bytes} : q = apostrophe ∨ q = quote → QuoteText q x → e = q ∨ e = lf →
      Atom (q :: (x ++ [e]))
  | template {x : Bytes} : TemplateText x → Atom (grave :: (x ++ [grave]))

end

/-- Inert bytes in front of code are code. -/
theorem Code.inert_append {x y : Bytes} (hx : x.all isInert = true) (hy : Code y) : Code (x ++ y) := by
  induction x with
  | nil => exact hy
  | cons b x ih =>
    rw [List.all_cons, Bool.and_eq_true] at hx
    have hb := hx.1
    simp only [isInert, Bool.and_eq_true, bne_iff_ne, ne_eq, Bool.not_eq_true'] at hb
    obtain ⟨⟨⟨hslash, hdelim⟩, hopen⟩, hclose⟩ := hb
    have hcomment : opensComment b (x ++ y).head? = false := by
      rw [opensComment, beq_false_of_ne hslash, Bool.false_and]
    exact .byte hdelim hopen hclose hcomment (ih hx.2)

/-! ### One byte -/

/-- The visit of a byte, if it shows. -/
def shown (i : Nat) (s : State) (b : UInt8) (next : Option UInt8) : List Visit :=
  if s.shows b next then [⟨i, b, s.depth⟩] else []

theorem visitsFrom_cons (i : Nat) (s : State) (b : UInt8) (rest : Bytes) :
    visitsFrom i s (b :: rest) =
      shown i s b rest.head? ++ visitsFrom (i + 1) (s.step b rest.head?) rest := by
  rw [visitsFrom, shown]
  split <;> rfl

/-- A byte in a string does not show. -/
theorem visitsFrom_string_cons (i : Nat) (q : UInt8) (d : Int) (o : List Int) (b : UInt8) (rest : Bytes) :
    visitsFrom i ⟨.string q, d, o⟩ (b :: rest) =
      visitsFrom (i + 1) (State.stepString ⟨.string q, d, o⟩ q b rest.head?) rest :=
  visitsFrom_hidden (State.shows_eq_false (by simp) _ _) i

/-- A byte behind a backslash does not show. -/
theorem visitsFrom_escape_cons (i : Nat) (q : UInt8) (d : Int) (o : List Int) (b : UInt8) (rest : Bytes) :
    visitsFrom i ⟨.escape q, d, o⟩ (b :: rest) = visitsFrom (i + 1) ⟨.string q, d, o⟩ rest :=
  visitsFrom_hidden (State.shows_eq_false (by simp) _ _) i

/-- A backslash takes the byte behind it along. -/
theorem visitsFrom_string_escape (i : Nat) (q : UInt8) (d : Int) (o : List Int) (b : UInt8) (rest : Bytes) :
    visitsFrom i ⟨.string q, d, o⟩ (backslash :: b :: rest) =
      visitsFrom (i + 2) ⟨.string q, d, o⟩ rest := by
  rw [visitsFrom_string_cons]
  exact visitsFrom_escape_cons (i + 1) q d o b rest

/-- A byte that neither ends a string nor opens a substitution changes nothing. -/
theorem visitsFrom_string_byte {q b : UInt8} {rest : Bytes} (hq : b ≠ q) (hback : b ≠ backslash)
    (hlf : b = lf → q = grave) (hopen : b = dollar → q = grave → rest.head? ≠ some lbrace) (i : Nat)
    (d : Int) (o : List Int) :
    visitsFrom i ⟨.string q, d, o⟩ (b :: rest) = visitsFrom (i + 1) ⟨.string q, d, o⟩ rest := by
  have hstay : State.stepString ⟨.string q, d, o⟩ q b rest.head? = ⟨.string q, d, o⟩ := by
    rw [State.stepString, if_neg (by simpa using hback), if_neg (by simpa using hq),
      if_neg (by simpa using hlf), if_neg (by simpa [and_assoc] using hopen)]
  rw [visitsFrom_string_cons, hstay]

/-- A quote ends its string, and so does a line feed in a string that is no template. -/
theorem visitsFrom_string_end {q e : UInt8} (hq : q ≠ backslash) (he : e = q ∨ e = lf ∧ q ≠ grave) (i : Nat)
    (d : Int) (o : List Int) (rest : Bytes) :
    visitsFrom i ⟨.string q, d, o⟩ (e :: rest) = visitsFrom (i + 1) ⟨.code, d, o⟩ rest := by
  have hback : e ≠ backslash := by
    rintro rfl
    rcases he with rfl | ⟨hlf, -⟩
    · exact hq rfl
    · exact absurd hlf (by decide)
  have hend : State.stepString ⟨.string q, d, o⟩ q e rest.head? = ⟨.code, d, o⟩ := by
    rw [State.stepString, if_neg (by simpa using hback)]
    by_cases hsame : e = q
    · rw [if_pos (by simpa using hsame)]
    · obtain ⟨hlf, hgrave⟩ := he.resolve_left hsame
      rw [if_neg (by simpa using hsame), if_pos (by simp [hlf, hgrave])]
  rw [visitsFrom_string_cons, hend]

/-- The delimiter that opens a string. -/
theorem visitsFrom_delimiter {q : UInt8} (hq : isDelimiter q = true) {s : State} (hs : s.mode = .code)
    (i : Nat) (rest : Bytes) :
    visitsFrom i s (q :: rest) = visitsFrom (i + 1) ⟨.string q, s.depth, s.outer⟩ rest := by
  have hslash : q ≠ slash := by
    rintro rfl
    exact absurd hq (by decide)
  have hstep : s.step q rest.head? = ⟨.string q, s.depth, s.outer⟩ := by
    rw [State.step, hs]
    show s.stepCode q rest.head? = _
    rw [State.stepCode, if_neg (by simp [hslash]), if_neg (by simp [hslash]), if_pos hq]
  have hhide : s.shows q rest.head? = false := by
    rw [State.shows, hq]
    simp
  rw [visitsFrom_hidden hhide, hstep]

/-- A byte of code that is neither a quote nor a brace and opens no comment. -/
theorem State.step_plain {s : State} (hs : s.mode = .code) {b : UInt8} {next : Option UInt8}
    (hdelim : isDelimiter b = false) (hopen : b ≠ lbrace) (hclose : b ≠ rbrace)
    (hcomment : opensComment b next = false) : s.step b next = s := by
  have hline : (b == slash && next == some slash) = false := by
    rw [opensComment, Bool.and_or_distrib_left, Bool.or_eq_false_iff] at hcomment
    exact hcomment.1
  have hblock : (b == slash && next == some star) = false := by
    rw [opensComment, Bool.and_or_distrib_left, Bool.or_eq_false_iff] at hcomment
    exact hcomment.2
  rw [State.step, hs]
  show s.stepCode b next = s
  rw [State.stepCode, hline, hblock, hdelim, beq_false_of_ne hopen, beq_false_of_ne hclose]
  rfl

/-! ### Strings -/

/-- The scanner passes a string with everything in it. -/
theorem QuoteText.visitsFrom_eq {q e : UInt8} {x : Bytes} (h : QuoteText q x)
    (hq : q = apostrophe ∨ q = quote) (he : e = q ∨ e = lf) (d : Int) (o : List Int) (y : Bytes) :
    ∀ i, visitsFrom i ⟨.string q, d, o⟩ (x ++ e :: y) = visitsFrom (i + x.length + 1) ⟨.code, d, o⟩ y := by
  have hback : q ≠ backslash := by rcases hq with rfl | rfl <;> decide
  have hgrave : q ≠ grave := by rcases hq with rfl | rfl <;> decide
  induction h with
  | nil =>
    intro i
    exact visitsFrom_string_end hback (he.imp_right fun hlf => ⟨hlf, hgrave⟩) i d o y
  | @escape b x _ ih =>
    intro i
    show visitsFrom i ⟨.string q, d, o⟩ (backslash :: b :: (x ++ e :: y)) = _
    rw [visitsFrom_string_escape, ih, List.length_cons, List.length_cons,
      show i + 2 + x.length + 1 = i + (x.length + 1 + 1) + 1 by omega]
  | @byte b x hbq hbback hblf _ ih =>
    intro i
    show visitsFrom i ⟨.string q, d, o⟩ (b :: (x ++ e :: y)) = _
    rw [visitsFrom_string_byte hbq hbback (fun h => absurd h hblf) (fun _ h => absurd h hgrave), ih,
      List.length_cons, show i + 1 + x.length + 1 = i + (x.length + 1) + 1 by omega]

/-! ### What the scanner makes of the rules -/

/-- The visits stay within the level of code a state is in: none of them leaves it, and a closing brace
among them stands deeper. Nothing shows in a substitution. -/
def Within (s : State) (vs : List Visit) : Prop :=
  ∀ v ∈ vs, s.outer = [] ∧ (v.byte = rbrace → s.depth < v.depth)

theorem Within.append {s : State} {vs ws : List Visit} (hv : Within s vs) (hw : Within s ws) :
    Within s (vs ++ ws) := by
  intro v hmem
  rcases List.mem_append.1 hmem with hmem | hmem
  · exact hv v hmem
  · exact hw v hmem

/-- What stays within the next deeper level stays within this one. -/
theorem Within.of_deeper {s : State} {vs : List Visit} (h : Within { s with depth := s.depth + 1 } vs) :
    Within s vs := by
  intro v hmem
  obtain ⟨houter, hdeep⟩ := h v hmem
  refine ⟨houter, fun hbyte => ?_⟩
  have hlt : s.depth + 1 < v.depth := hdeep hbyte
  omega

/-- Within a substitution nothing shows. -/
theorem Within.eq_nil {s : State} {vs : List Visit} (h : Within s vs) (houter : s.outer ≠ []) : vs = [] := by
  cases vs with
  | nil => rfl
  | cons v vs => exact absurd (h v List.mem_cons_self).1 houter

theorem within_nil (s : State) : Within s [] := by simp [Within]

/-- A byte that is no closing brace stays within its level. -/
theorem within_shown {s : State} {b : UInt8} (hb : b ≠ rbrace) (i : Nat) (next : Option UInt8) :
    Within s (shown i s b next) := by
  intro v hv
  unfold shown at hv
  split at hv
  · rename_i hshows
    obtain rfl := List.mem_singleton.1 hv
    simp only [State.shows, Bool.and_eq_true, List.isEmpty_iff] at hshows
    exact ⟨hshows.1.1.2, fun h => absurd h hb⟩
  · simp at hv

/-- A closing brace stays within the level around the one it closes. -/
theorem within_shown_deeper (s : State) (i : Nat) (next : Option UInt8) :
    Within s (shown i { s with depth := s.depth + 1 } rbrace next) := by
  intro v hv
  unfold shown at hv
  split at hv
  · rename_i hshows
    obtain rfl := List.mem_singleton.1 hv
    simp only [State.shows, Bool.and_eq_true, List.isEmpty_iff] at hshows
    refine ⟨hshows.1.1.2, fun _ => ?_⟩
    show s.depth < s.depth + 1
    omega
  · simp at hv

/-- In a substitution the scanner is inside the brace that opens it. -/
def Level (s : State) : Prop := s.mode = .code ∧ (s.outer = [] ∨ 0 < s.depth)

theorem Level.deeper {s : State} (h : Level s) : Level { s with depth := s.depth + 1 } := by
  obtain ⟨hmode, houter⟩ := h
  refine ⟨hmode, houter.imp_right fun hpos => ?_⟩
  show 0 < s.depth + 1
  omega

theorem Level.step_lbrace {s : State} (h : Level s) (next : Option UInt8) :
    s.step lbrace next = { s with depth := s.depth + 1 } := by
  obtain ⟨mode, depth, outer⟩ := s
  obtain ⟨rfl, -⟩ := h
  rfl

/-- A closing brace leads back to the level around. -/
theorem Level.step_rbrace {s : State} (h : Level s) (next : Option UInt8) :
    State.step { s with depth := s.depth + 1 } rbrace next = s := by
  obtain ⟨mode, depth, outer⟩ := s
  obtain ⟨rfl, houter⟩ := h
  show State.closeBrace ⟨.code, depth + 1, outer⟩ = _
  match outer with
  | [] =>
    show State.mk .code (depth + 1 - 1) [] = _
    rw [Int.add_sub_cancel]
  | e :: outer =>
    have hpos : 0 < depth := houter.resolve_left (by simp)
    have hne : depth + 1 ≠ 1 := by omega
    show (if depth + 1 = 1 then _ else State.mk .code (depth + 1 - 1) (e :: outer)) = _
    rw [if_neg hne, Int.add_sub_cancel]

mutual

/-- **A closing brace in code stands deeper than the code itself,** and behind the code the scanner is as
in front of it. -/
theorem Code.exists_visitsFrom {x : Bytes} : Code x → ∀ {s : State}, Level s → ∀ {y : Bytes},
    y.head? = some rbrace → ∀ i, ∃ vs, visitsFrom i s (x ++ y) = vs ++ visitsFrom (i + x.length) s y ∧
      Within s vs
  | .nil, s, _, y, _, i => ⟨[], rfl, within_nil s⟩
  | .byte (b := b) (x := x) hdelim hopen hclose hcomment hx, s, hs, y, hy, i => by
    obtain ⟨vs, hvs, hwithin⟩ := hx.exists_visitsFrom hs hy (i + 1)
    have hnext : opensComment b (x ++ y).head? = false := by
      cases x with
      | nil =>
        rw [List.nil_append, hy, opensComment]
        exact Bool.and_false (b == slash)
      | cons c x => exact hcomment
    refine ⟨shown i s b (x ++ y).head? ++ vs, ?_, (within_shown hclose i _).append hwithin⟩
    rw [List.cons_append, visitsFrom_cons, State.step_plain hs.1 hdelim hopen hclose hnext, hvs,
      List.append_assoc, List.length_cons, Nat.add_assoc, Nat.add_comm 1]
  | .atom (a := a) (x := x) ha hx, s, hs, y, hy, i => by
    obtain ⟨vs, hvs, hwithin⟩ := hx.exists_visitsFrom hs hy (i + a.length)
    refine ⟨vs, ?_, hwithin⟩
    rw [List.append_assoc, ha.visitsFrom_eq hs.1, hvs, List.length_append, Nat.add_assoc]
  | .braces (x := x) (y := z) hx hz, s, hs, y, hy, i => by
    obtain ⟨vs, hvs, hvwithin⟩ := hx.exists_visitsFrom hs.deeper (y := rbrace :: (z ++ y)) rfl (i + 1)
    obtain ⟨ws, hws, hwwithin⟩ := hz.exists_visitsFrom hs hy (i + 1 + x.length + 1)
    refine ⟨shown i s lbrace (x ++ rbrace :: (z ++ y)).head? ++ (vs ++
      (shown (i + 1 + x.length) { s with depth := s.depth + 1 } rbrace (z ++ y).head? ++ ws)), ?_, ?_⟩
    · rw [List.cons_append, List.append_assoc, List.cons_append, visitsFrom_cons, hs.step_lbrace, hvs,
        visitsFrom_cons, hs.step_rbrace, hws]
      simp only [List.append_assoc, List.length_cons, List.length_append]
      rw [show i + 1 + x.length + 1 + z.length = i + (x.length + (z.length + 1) + 1) by omega]
    · exact (within_shown (by decide) i _).append
        (hvwithin.of_deeper.append ((within_shown_deeper s _ _).append hwwithin))

/-- The scanner passes a template with everything in it. -/
theorem TemplateText.visitsFrom_eq {x : Bytes} : TemplateText x → ∀ (i : Nat) (d : Int) (o : List Int)
    (y : Bytes), visitsFrom i ⟨.string grave, d, o⟩ (x ++ grave :: y) =
      visitsFrom (i + x.length + 1) ⟨.code, d, o⟩ y
  | .nil, i, d, o, y => visitsFrom_string_end (by decide) (Or.inl rfl) i d o y
  | .escape (b := b) (x := x) hx, i, d, o, y => by
    show visitsFrom i ⟨.string grave, d, o⟩ (backslash :: b :: (x ++ grave :: y)) = _
    rw [visitsFrom_string_escape, hx.visitsFrom_eq, List.length_cons, List.length_cons,
      show i + 2 + x.length + 1 = i + (x.length + 1 + 1) + 1 by omega]
  | .substitution (x := x) (y := z) hx hz, i, d, o, y => by
    have hlevel : Level ⟨.code, 1, d :: o⟩ := ⟨rfl, Or.inr Int.zero_lt_one⟩
    obtain ⟨vs, hvs, hwithin⟩ :=
      hx.exists_visitsFrom hlevel (y := rbrace :: (z ++ grave :: y)) rfl (i + 1 + 1)
    obtain rfl := hwithin.eq_nil (by simp)
    -- the dollar sign opens the substitution, and the last brace closes it
    have hdollar : State.stepString ⟨.string grave, d, o⟩ grave dollar (some lbrace) =
        ⟨.code, 0, d :: o⟩ := rfl
    have hbrace : State.step ⟨.code, 0, d :: o⟩ lbrace (x ++ rbrace :: (z ++ grave :: y)).head? =
        ⟨.code, 1, d :: o⟩ := rfl
    have hclose : State.step ⟨.code, 1, d :: o⟩ rbrace (z ++ grave :: y).head? =
        ⟨.string grave, d, o⟩ := rfl
    show visitsFrom i ⟨.string grave, d, o⟩ (dollar :: lbrace :: ((x ++ rbrace :: z) ++ grave :: y)) = _
    rw [List.append_assoc, List.cons_append, visitsFrom_string_cons, List.head?_cons, hdollar,
      visitsFrom_hidden (by simp [State.shows]), hbrace, hvs, List.nil_append,
      visitsFrom_hidden (by simp [State.shows]), hclose, hz.visitsFrom_eq]
    simp only [List.length_cons, List.length_append]
    rw [show i + 1 + 1 + x.length + 1 + z.length + 1 = i + (x.length + (z.length + 1) + 1 + 1) + 1 by omega]
  | .byte (b := b) (x := x) hgrave hback hopen hx, i, d, o, y => by
    have hnext : b = dollar → (x ++ grave :: y).head? ≠ some lbrace := by
      intro hb hhead
      cases x with
      | nil => exact absurd hhead (by simp; decide)
      | cons c x => exact hopen ⟨hb, hhead⟩
    show visitsFrom i ⟨.string grave, d, o⟩ (b :: (x ++ grave :: y)) = _
    rw [visitsFrom_string_byte hgrave hback (fun _ => rfl) (fun hb _ => hnext hb), hx.visitsFrom_eq,
      List.length_cons, show i + 1 + x.length + 1 = i + (x.length + 1) + 1 by omega]

/-- Comments, strings and templates show no byte, and change nothing. -/
theorem Atom.visitsFrom_eq {a : Bytes} : Atom a → ∀ {s : State}, s.mode = .code → ∀ (i : Nat) (y : Bytes),
    visitsFrom i s (a ++ y) = visitsFrom (i + a.length) s y
  | .lineComment (x := x) hx, s, hs, i, y => by
    show visitsFrom i s (slash :: slash :: ((x ++ [lf]) ++ y)) = _
    rw [List.append_assoc, List.singleton_append, visitsFrom_lineComment hs hx, List.length_cons,
      List.length_cons, List.length_append]
    rfl
  | .blockComment (x := x) hx, s, hs, i, y => by
    show visitsFrom i s (slash :: star :: ((x ++ [star, slash]) ++ y)) = _
    rw [List.append_assoc, List.cons_append, List.singleton_append, visitsFrom_blockComment hs hx,
      List.length_cons, List.length_cons, List.length_append]
    rfl
  | .string (q := q) (e := e) (x := x) hq hx he, s, hs, i, y => by
    obtain ⟨mode, depth, outer⟩ := s
    obtain rfl : mode = .code := hs
    have hdelim : isDelimiter q = true := by rcases hq with rfl | rfl <;> rfl
    show visitsFrom i _ (q :: ((x ++ [e]) ++ y)) = _
    rw [List.append_assoc, List.singleton_append, visitsFrom_delimiter hdelim rfl,
      hx.visitsFrom_eq hq he, List.length_cons, List.length_append, List.length_singleton,
      show i + 1 + x.length + 1 = i + (x.length + 1 + 1) by omega]
  | .template (x := x) hx, s, hs, i, y => by
    obtain ⟨mode, depth, outer⟩ := s
    obtain rfl : mode = .code := hs
    show visitsFrom i _ (grave :: ((x ++ [grave]) ++ y)) = _
    rw [List.append_assoc, List.singleton_append, visitsFrom_delimiter rfl rfl, hx.visitsFrom_eq,
      List.length_cons, List.length_append, List.length_singleton,
      show i + 1 + x.length + 1 = i + (x.length + 1 + 1) by omega]

end

end Spotlight.Scan
