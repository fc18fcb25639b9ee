import Spotlight.Proofs.Scan.Grammar
import Spotlight.Proofs.Text.Bytes

/-!
# The arguments behind a body

Behind the body of a call may stand further arguments, a closing parenthesis and a semicolon. The scan counts
parentheses and square brackets in one number and leaves the braces to the scanner. Where all brackets nest, the number
of open brackets and the depth come back together, so the parenthesis that is found is the one behind the arguments.

* `Scan.Nested`, `Scan.Trailing` — text whose brackets nest, and arguments that go on behind a body;
* `Scan.BehindCall` — what a call leaves of the text behind its parenthesis;
* `Scan.Nested.closingParen?_eq` — nested text holds no parenthesis that closes the call;
* `Scan.exists_closeCall?` — the call ends behind its arguments.
-/

namespace Spotlight.Scan

open Bytes

/-! ### The rules -/

/-- Is `b` a bracket of any kind? -/
def isBracket (b : UInt8) : Bool :=
  b == lparen || b == rparen || b == lbracket || b == rbracket || b == lbrace || b == rbrace

/-- A pair of parentheses or of square brackets. -/
def IsPair (l r : UInt8) : Prop := (l = lparen ∧ r = rparen) ∨ (l = lbracket ∧ r = rbracket)

/-- Text whose brackets nest; comments, strings and templates are taken whole. A semicolon stands inside brackets only.
What follows such a text is a closing bracket, so its last byte opens no comment. -/
inductive Nested : (inside : Bool) → Bytes → Prop
  | nil {inside : Bool} : Nested inside []
  | byte {inside : Bool} {b : UInt8} {x : Bytes} : isDelimiter b = false → isBracket b = false →
      opensComment b x.head? = false → (b = semicolon → inside = true) → Nested inside x → Nested inside (b :: x)
  | atom {inside : Bool} {a x : Bytes} : Atom a → Nested inside x → Nested inside (a ++ x)
  | pair {inside : Bool} {l r : UInt8} {x y : Bytes} : IsPair l r → Nested true x → Nested inside y →
      Nested inside (l :: (x ++ r :: y))
  | braces {inside : Bool} {x y : Bytes} : Nested true x → Nested inside y →
      Nested inside (lbrace :: (x ++ rbrace :: y))

/-- What may stand between the body of a call and the closing parenthesis: nothing, or a comma and nested text. -/
def Trailing (args : Bytes) : Prop := args = [] ∨ ∃ x, args = comma :: x ∧ Nested false x

/-- A call leaves `back` of the text `rest` behind its parenthesis: it takes a semicolon with the spaces and tabs in
front of it, where there is one. -/
inductive BehindCall : (rest back : Bytes) → Prop
  | semicolon {gap back : Bytes} : gap.all (isGap false) = true → BehindCall (gap ++ semicolon :: back) back
  | bare {rest : Bytes} : (∀ gap back, gap.all (isGap false) = true → rest ≠ gap ++ Bytes.semicolon :: back) →
      BehindCall rest rest

/-- Inert bytes that are no brackets may stand in front of nested text, semicolons only inside brackets. -/
theorem Nested.inert_append {inside : Bool} {x y : Bytes} (hx : x.all (fun b => isInert b && !isBracket b) = true)
    (hsemi : semicolon ∈ x → inside = true) (hy : Nested inside y) : Nested inside (x ++ y) := by
  induction x with
  | nil => exact hy
  | cons b x ih =>
    rw [List.all_cons, Bool.and_eq_true, Bool.and_eq_true, Bool.not_eq_true'] at hx
    obtain ⟨⟨hinert, hbracket⟩, hx⟩ := hx
    simp only [isInert, Bool.and_eq_true, bne_iff_ne, ne_eq, Bool.not_eq_true'] at hinert
    have hcomment : opensComment b (x ++ y).head? = false := by
      rw [opensComment, beq_false_of_ne hinert.1.1.1, Bool.false_and]
    exact .byte hinert.1.1.2 hbracket hcomment (fun hb => hsemi (hb ▸ List.mem_cons_self))
      (ih hx fun h => hsemi (List.mem_cons_of_mem b h))

theorem exists_behindCall (rest : Bytes) : ∃ back, BehindCall rest back := by
  by_cases h : ∃ gap back, gap.all (isGap false) = true ∧ rest = gap ++ semicolon :: back
  · obtain ⟨gap, back, hgap, rfl⟩ := h
    exact ⟨back, .semicolon hgap⟩
  · exact ⟨rest, .bare fun gap back hgap heq => h ⟨gap, back, hgap, heq⟩⟩

/-! ### One bracket -/

theorem visitsFrom_plain {b : UInt8} {rest : Bytes} (hdelim : isDelimiter b = false) (hopen : b ≠ lbrace)
    (hclose : b ≠ rbrace) (hcomment : opensComment b rest.head? = false) (i : Nat) (d : Int) :
    visitsFrom i ⟨.code, d, []⟩ (b :: rest) = ⟨i, b, d⟩ :: visitsFrom (i + 1) ⟨.code, d, []⟩ rest := by
  have hshows : State.shows ⟨.code, d, []⟩ b rest.head? = true := by simp [State.shows, hcomment, hdelim]
  rw [visitsFrom, State.step_plain rfl hdelim hopen hclose hcomment, hshows]
  rfl

/-- Both brackets of a pair show, and neither changes anything. -/
theorem visitsFrom_pair {l r : UInt8} (h : IsPair l r) (i : Nat) (d : Int) (rest : Bytes) :
    visitsFrom i ⟨.code, d, []⟩ (l :: rest) = ⟨i, l, d⟩ :: visitsFrom (i + 1) ⟨.code, d, []⟩ rest ∧
      visitsFrom i ⟨.code, d, []⟩ (r :: rest) = ⟨i, r, d⟩ :: visitsFrom (i + 1) ⟨.code, d, []⟩ rest := by
  rcases h with ⟨rfl, rfl⟩ | ⟨rfl, rfl⟩
  · exact ⟨visitsFrom_plain rfl (by decide) (by decide) rfl i d, visitsFrom_plain rfl (by decide) (by decide) rfl i d⟩
  · exact ⟨visitsFrom_plain rfl (by decide) (by decide) rfl i d, visitsFrom_plain rfl (by decide) (by decide) rfl i d⟩

theorem visitsFrom_lbrace (i : Nat) (d : Int) (rest : Bytes) :
    visitsFrom i ⟨.code, d, []⟩ (lbrace :: rest) =
      ⟨i, lbrace, d⟩ :: visitsFrom (i + 1) ⟨.code, d + 1, []⟩ rest := rfl

theorem visitsFrom_rbrace (i : Nat) (d : Int) (rest : Bytes) :
    visitsFrom i ⟨.code, d + 1, []⟩ (rbrace :: rest) =
      ⟨i, rbrace, d + 1⟩ :: visitsFrom (i + 1) ⟨.code, d, []⟩ rest := by
  have hlevel : Level ⟨.code, d, []⟩ := ⟨rfl, Or.inl rfl⟩
  rw [visitsFrom_cons, hlevel.step_rbrace]
  rfl

section

variable {opened : Int} {v : Visit} {vs : List Visit}

/-- A byte that is no bracket is passed, and so is a semicolon inside brackets. -/
theorem closingParen?_plain (hb : isBracket v.byte = false)
    (hsemi : v.byte = semicolon → 0 < v.depth ∨ 0 < opened) :
    closingParen? opened (v :: vs) = closingParen? opened vs := by
  simp only [isBracket, Bool.or_eq_false_iff] at hb
  obtain ⟨⟨⟨⟨⟨hlparen, hrparen⟩, hlbracket⟩, hrbracket⟩, -⟩, hrbrace⟩ := hb
  have hinside : (v.byte == semicolon && v.depth == 0 && opened == 0) = false := by
    rw [← Bool.not_eq_true, Bool.and_eq_true, Bool.and_eq_true, beq_iff_eq, beq_iff_eq, beq_iff_eq]
    intro h
    obtain ⟨⟨hbyte, hdepth⟩, hopened⟩ := h
    have := hsemi hbyte
    omega
  rw [closingParen?, hlparen, hlbracket, hrparen, hrbracket, hrbrace, hinside]
  rfl

/-- A bracket that opens counts. -/
theorem closingParen?_left {l r : UInt8} (h : IsPair l r) (hb : v.byte = l) :
    closingParen? opened (v :: vs) = closingParen? (opened + 1) vs := by
  rw [closingParen?, hb]
  rcases h with ⟨rfl, -⟩ | ⟨rfl, -⟩ <;> rfl

/-- A bracket that closes another one is counted off. -/
theorem closingParen?_right {l r : UInt8} (h : IsPair l r) (hb : v.byte = r) (hopened : 0 ≤ opened) :
    closingParen? (opened + 1) (v :: vs) = closingParen? opened vs := by
  have hzero : (opened + 1 == 0) = false := beq_false_of_ne (by omega)
  rw [closingParen?, hb, hzero, Int.add_sub_cancel]
  rcases h with ⟨-, rfl⟩ | ⟨-, rfl⟩ <;> rfl

theorem closingParen?_lbrace (hb : v.byte = lbrace) :
    closingParen? opened (v :: vs) = closingParen? opened vs := by
  rw [closingParen?, hb]
  rfl

/-- A brace that closes another one is passed. -/
theorem closingParen?_rbrace (hb : v.byte = rbrace) (hdepth : 0 < v.depth) :
    closingParen? opened (v :: vs) = closingParen? opened vs := by
  have hzero : (v.depth == 0) = false := beq_false_of_ne (by omega)
  rw [closingParen?, hb, hzero]
  rfl

end

/-! ### Nested text -/

/-- Does the byte close a bracket? -/
def closesBracket (b : UInt8) : Bool := b == rparen || b == rbracket || b == rbrace

theorem opensComment_append {b : UInt8} {x y : Bytes} (hx : opensComment b x.head? = false)
    (hy : y.head?.any closesBracket = true) : opensComment b (x ++ y).head? = false := by
  cases x with
  | cons c x => exact hx
  | nil =>
    obtain ⟨c, hc, hclose⟩ := (Option.any_eq_true _ _).1 hy
    simp only [closesBracket, Bool.or_eq_true, beq_iff_eq] at hclose
    rw [List.nil_append, hc]
    rcases hclose with (rfl | rfl) | rfl <;> exact Bool.and_false (b == slash)

/-- **Nested text holds no parenthesis that closes the call.** Behind it the scan has as many brackets open as in
front of it. -/
theorem Nested.closingParen?_eq {inside : Bool} {x : Bytes} (h : Nested inside x) : ∀ {d opened : Int}, 0 ≤ d →
    0 ≤ opened → (inside = true → 0 < d ∨ 0 < opened) → ∀ {y : Bytes}, y.head?.any closesBracket = true → ∀ i,
      closingParen? opened (visitsFrom i ⟨.code, d, []⟩ (x ++ y)) =
        closingParen? opened (visitsFrom (i + x.length) ⟨.code, d, []⟩ y) := by
  induction h with
  | nil =>
    intro d opened _ _ _ y _ i
    rfl
  | @byte inside b x hdelim hbracket hcomment hsemi _ ih =>
    intro d opened hd hopened hinside y hy i
    have hopen : b ≠ lbrace := by rintro rfl; exact absurd hbracket (by decide)
    have hclose : b ≠ rbrace := by rintro rfl; exact absurd hbracket (by decide)
    have hend : i + 1 + x.length = i + (b :: x).length := by
      rw [List.length_cons]
      omega
    calc closingParen? opened (visitsFrom i ⟨.code, d, []⟩ (b :: (x ++ y)))
        = closingParen? opened (visitsFrom (i + 1) ⟨.code, d, []⟩ (x ++ y)) := by
          rw [visitsFrom_plain hdelim hopen hclose (opensComment_append hcomment hy)]
          exact closingParen?_plain hbracket fun hb => hinside (hsemi hb)
      _ = closingParen? opened (visitsFrom (i + (b :: x).length) ⟨.code, d, []⟩ y) := by
          rw [ih hd hopened hinside hy, hend]
  | @atom inside a x ha _ ih =>
    intro d opened hd hopened hinside y hy i
    rw [List.append_assoc, ha.visitsFrom_eq rfl, ih hd hopened hinside hy, List.length_append, Nat.add_assoc]
  | @pair inside l r x z hpair _ _ ihx ihz =>
    intro d opened hd hopened hinside y hy i
    have hr : (r :: (z ++ y)).head?.any closesBracket = true := by
      rcases hpair with ⟨-, rfl⟩ | ⟨-, rfl⟩ <;> rfl
    have hend : i + 1 + x.length + 1 + z.length = i + (l :: (x ++ r :: z)).length := by
      simp only [List.length_cons, List.length_append]
      omega
    rw [List.cons_append, List.append_assoc, List.cons_append]
    calc closingParen? opened (visitsFrom i ⟨.code, d, []⟩ (l :: (x ++ r :: (z ++ y))))
        = closingParen? (opened + 1) (visitsFrom (i + 1) ⟨.code, d, []⟩ (x ++ r :: (z ++ y))) := by
          rw [(visitsFrom_pair hpair i d _).1]
          exact closingParen?_left hpair rfl
      _ = closingParen? (opened + 1) (visitsFrom (i + 1 + x.length) ⟨.code, d, []⟩ (r :: (z ++ y))) :=
          ihx hd (by omega) (fun _ => Or.inr (by omega)) hr (i + 1)
      _ = closingParen? opened (visitsFrom (i + 1 + x.length + 1) ⟨.code, d, []⟩ (z ++ y)) := by
          rw [(visitsFrom_pair hpair (i + 1 + x.length) d _).2]
          exact closingParen?_right hpair rfl hopened
      _ = closingParen? opened (visitsFrom (i + (l :: (x ++ r :: z)).length) ⟨.code, d, []⟩ y) := by
          rw [ihz hd hopened hinside hy, hend]
  | @braces inside x z _ _ ihx ihz =>
    intro d opened hd hopened hinside y hy i
    have hdeeper : 0 < d + 1 := by omega
    have hend : i + 1 + x.length + 1 + z.length = i + (lbrace :: (x ++ rbrace :: z)).length := by
      simp only [List.length_cons, List.length_append]
      omega
    rw [List.cons_append, List.append_assoc, List.cons_append]
    calc closingParen? opened (visitsFrom i ⟨.code, d, []⟩ (lbrace :: (x ++ rbrace :: (z ++ y))))
        = closingParen? opened (visitsFrom (i + 1) ⟨.code, d + 1, []⟩ (x ++ rbrace :: (z ++ y))) := by
          rw [visitsFrom_lbrace]
          exact closingParen?_lbrace rfl
      _ = closingParen? opened (visitsFrom (i + 1 + x.length) ⟨.code, d + 1, []⟩ (rbrace :: (z ++ y))) :=
          ihx (by omega) hopened (fun _ => Or.inl hdeeper) rfl (i + 1)
      _ = closingParen? opened (visitsFrom (i + 1 + x.length + 1) ⟨.code, d, []⟩ (z ++ y)) := by
          rw [visitsFrom_rbrace]
          exact closingParen?_rbrace rfl hdeeper
      _ = closingParen? opened (visitsFrom (i + (lbrace :: (x ++ rbrace :: z)).length) ⟨.code, d, []⟩ y) := by
          rw [ihz hd hopened hinside hy, hend]

/-! ### The end of a call -/

section

variable {src : Bytes} {i : Nat}

/-- The parenthesis behind nested text is found. -/
theorem argsEnd?_of_nested {x rest : Bytes} (hx : Nested false x) (h : src.drop i = x ++ rparen :: rest) :
    argsEnd? src i = some (i + x.length) := by
  rw [argsEnd?, visits, h]
  show closingParen? 0 (visitsFrom i ⟨.code, 0, []⟩ (x ++ rparen :: rest)) = _
  rw [hx.closingParen?_eq (Int.le_refl 0) (Int.le_refl 0) (fun h => absurd h Bool.false_ne_true) rfl]
  rfl

theorem skipSpace_eq {newlines : Bool} {w rest : Bytes} (hw : w.all (isGap newlines) = true)
    (hrest : rest.head?.any (isGap newlines) = false) (h : src.drop i = w ++ rest) :
    skipSpace src i newlines = i + w.length := by
  have hstop : rest.takeWhile (isGap newlines) = [] := by
    cases rest with
    | nil => rfl
    | cons b rest => exact List.takeWhile_cons_of_neg (by simpa using hrest)
  rw [skipSpace, h, List.takeWhile_append_of_pos (List.all_eq_true.1 hw), hstop, List.append_nil]

/-- A call takes a semicolon only where one stands behind spaces and tabs. -/
theorem exists_closeParen? {rest back : Bytes} (h : src.drop i = rparen :: rest) (hback : BehindCall rest back) :
    ∃ e, closeParen? src i = some e ∧ e + back.length = src.length := by
  have hlen := congrArg List.length h
  rw [List.length_drop, List.length_cons] at hlen
  have hparen : (src[i]? == some rparen) = true := by rw [getElem?_of_drop h]; rfl
  have hrest : src.drop (i + 1) = rest := drop_add_of_drop (x := [rparen]) h
  rw [closeParen?, hparen, if_pos rfl]
  dsimp only
  cases hback with
  | @semicolon gap back hgap =>
    have hskip : skipSpace src (i + 1) false = i + 1 + gap.length := skipSpace_eq hgap rfl hrest
    have hsemi : (src[i + 1 + gap.length]? == some Bytes.semicolon) = true := by
      rw [getElem?_of_drop (drop_add_of_drop hrest)]
      rfl
    rw [List.length_append, List.length_cons] at hlen
    rw [hskip, hsemi, if_pos rfl]
    exact ⟨_, rfl, by omega⟩
  | bare hnone =>
    -- what stands behind the spaces and tabs is no semicolon
    have hsemi : ¬ (src[skipSpace src (i + 1) false]? == some Bytes.semicolon) = true := by
      rw [skipSpace, hrest, beq_iff_eq]
      intro hat
      have hsplit := List.takeWhile_append_dropWhile (p := isGap false) (l := rest)
      have hdrop : src.drop (i + 1 + (rest.takeWhile (isGap false)).length) = rest.dropWhile (isGap false) :=
        drop_add_of_drop (hrest.trans hsplit.symm)
      rw [← List.head?_drop, hdrop] at hat
      obtain ⟨back, hback⟩ := List.head?_eq_some_iff.1 hat
      exact hnone (rest.takeWhile (isGap false)) back List.all_takeWhile (by rw [← hback, hsplit])
    rw [if_neg hsemi]
    exact ⟨_, rfl, by omega⟩

/-- **A call ends behind its arguments,** with the parenthesis or the semicolon after it. -/
theorem exists_closeCall? {w args rest back : Bytes} (hw : w.all (isGap true) = true) (hargs : Trailing args)
    (h : src.drop i = w ++ (args ++ rparen :: rest)) (hback : BehindCall rest back) :
    ∃ e, closeCall? src i = some e ∧ e + back.length = src.length := by
  rcases hargs with rfl | ⟨x, rfl, hx⟩
  · have hskip : skipSpace src i true = i + w.length := skipSpace_eq hw rfl h
    have hparen : src.drop (i + w.length) = rparen :: rest := drop_add_of_drop h
    have hcomma : ¬ (src[i + w.length]? == some comma) = true := by
      rw [getElem?_of_drop hparen]
      decide
    rw [closeCall?, hskip]
    rw [if_neg hcomma]
    exact exists_closeParen? hparen hback
  · have hskip : skipSpace src i true = i + w.length := skipSpace_eq hw rfl h
    have htail : src.drop (i + w.length) = comma :: (x ++ rparen :: rest) := drop_add_of_drop h
    have hcomma : (src[i + w.length]? == some comma) = true := by
      rw [getElem?_of_drop htail]
      rfl
    have hargs : src.drop (i + w.length + 1) = x ++ rparen :: rest := drop_add_of_drop (x := [comma]) htail
    rw [closeCall?, hskip]
    rw [hcomma, if_pos rfl, argsEnd?_of_nested hx hargs, Option.bind_some]
    exact exists_closeParen? (drop_add_of_drop hargs) hback

end

end Spotlight.Scan
