import Spotlight.Group.Extract
import Spotlight.Proofs.Text.Literal

/-!
# Where headers stand

* `Group.exists_of_readHeader?` — a header starts with the keyword and a parenthesis and ends with a
  brace;
* `Group.Stands` — a header stands in a text, with its start and its end;
* `Group.headersFrom_sublist` — the search finds headers only;
* `Group.stands_of_mem_headersFrom`, `Group.stands_of_mem_allHeadersFrom` — every header that is found
  stands there;
* `Group.of_mem_topLevel` — a header at the top level starts in code at depth zero.
-/

namespace Spotlight.Group

open Bytes

/-! ### Readers give back what follows -/

theorem skipBlanks_suffix (s : Bytes) : skipBlanks s <:+ s := List.dropWhile_suffix _

theorem suffix_of_strip? {lit s rest : Bytes} (h : Bytes.strip? lit s = some rest) : rest <:+ s :=
  ⟨lit, (Bytes.eq_append_of_strip? h).symm⟩

theorem suffix_of_literal {lit s rest : Bytes} (h : Literal.strip? lit s = some rest) : rest <:+ s := by
  obtain ⟨m, rfl, -⟩ := Literal.exists_of_strip? h
  exact List.suffix_append m rest

theorem suffix_of_untilQuote? {q : UInt8} {stop : UInt8 → Bool} {s name rest : Bytes}
    (h : untilQuote? q stop s = some (name, rest)) : rest <:+ s := by
  unfold untilQuote? at h
  dsimp only at h
  split at h
  · rename_i b t hdrop
    split at h
    · cases h
      have htail : rest <:+ s.dropWhile fun b => !stop b := by
        rw [hdrop]
        exact List.suffix_cons b rest
      exact htail.trans (List.dropWhile_suffix _)
    · simp at h
  · simp at h

theorem NamePattern.suffix_of_read? {names : NamePattern} {s name rest : Bytes}
    (h : names.read? s = some (name, rest)) : rest <:+ s := by
  unfold NamePattern.read? at h
  split at h
  · simp at h
  · rename_i lit q s
    split at h
    · split at h
      · rename_i q' t hstrip
        split at h
        · cases h
          exact ((List.suffix_cons q' rest).trans (suffix_of_literal hstrip)).trans
            (List.suffix_cons q s)
        · simp at h
      · simp at h
    · simp at h
  · rename_i q s
    split at h
    · exact (suffix_of_untilQuote? h).trans (List.suffix_cons q s)
    · split at h
      · exact (suffix_of_untilQuote? h).trans (List.suffix_cons q s)
      · simp at h

theorem suffix_of_stripParams? {s rest : Bytes} (h : stripParams? s = some rest) : rest <:+ s := by
  obtain ⟨t, ht, h⟩ := Option.bind_eq_some_iff.1 h
  exact ((suffix_of_strip? h).trans (skipBlanks_suffix t)).trans (suffix_of_strip? ht)

theorem suffix_of_stripArrow? {s rest : Bytes} (h : stripArrow? s = some rest) : rest <:+ s := by
  obtain ⟨t, ht, h⟩ := Option.bind_eq_some_iff.1 h
  exact ((suffix_of_strip? h).trans (skipBlanks_suffix t)).trans (suffix_of_stripParams? ht)

theorem suffix_of_stripFunction? {s rest : Bytes} (h : stripFunction? s = some rest) : rest <:+ s := by
  obtain ⟨t, ht, h⟩ := Option.bind_eq_some_iff.1 h
  exact ((suffix_of_stripParams? h).trans (skipBlanks_suffix t)).trans (suffix_of_strip? ht)

theorem skipAsync_suffix (s : Bytes) : skipAsync s <:+ s := by
  unfold skipAsync
  split
  · rename_i t ht
    exact (skipBlanks_suffix t).trans (suffix_of_strip? ht)
  · exact List.suffix_refl s

/-! ### Headers -/

/-- A header starts with the keyword and a parenthesis and ends with a brace. -/
theorem exists_of_readHeader? {keyword : Bytes} {names : NamePattern} {before : Option UInt8}
    {s name rest : Bytes} (h : readHeader? keyword names before s = some (name, rest)) :
    ∃ k mid, s = k ++ lparen :: (mid ++ lbrace :: rest) ∧
      Literal.strip? keyword s = some (lparen :: (mid ++ lbrace :: rest)) := by
  unfold readHeader? at h
  obtain ⟨⟨⟩, -, h⟩ := Option.bind_eq_some_iff.1 h
  obtain ⟨s₁, h₁, h⟩ := Option.bind_eq_some_iff.1 h
  obtain ⟨s₂, h₂, h⟩ := Option.bind_eq_some_iff.1 h
  obtain ⟨⟨n, s₃⟩, h₃, h⟩ := Option.bind_eq_some_iff.1 h
  obtain ⟨s₄, h₄, h⟩ := Option.bind_eq_some_iff.1 h
  obtain ⟨s₅, h₅, h⟩ := Option.bind_eq_some_iff.1 h
  obtain ⟨s₆, h₆, h⟩ := Option.bind_eq_some_iff.1 h
  cases h
  have hparen : s₁ = lparen :: s₂ := Bytes.eq_append_of_strip? h₂
  have hbrace : skipBlanks s₅ = lbrace :: rest := Bytes.eq_append_of_strip? h₆
  have hname : s₃ <:+ s₂ := (NamePattern.suffix_of_read? h₃).trans (skipBlanks_suffix s₂)
  have hcomma : s₄ <:+ s₃ := (suffix_of_strip? h₄).trans (skipBlanks_suffix s₃)
  have hfun : s₅ <:+ s₄ := by
    have hasync : skipAsync (skipBlanks s₄) <:+ s₄ :=
      (skipAsync_suffix _).trans (skipBlanks_suffix s₄)
    cases harrow : stripArrow? (skipAsync (skipBlanks s₄)) with
    | some t =>
      rw [harrow] at h₅
      cases h₅
      exact (suffix_of_stripArrow? harrow).trans hasync
    | none =>
      rw [harrow] at h₅
      exact (suffix_of_stripFunction? h₅).trans hasync
  have htail : lbrace :: rest <:+ s₂ := by
    rw [← hbrace]
    exact (((skipBlanks_suffix s₅).trans hfun).trans hcomma).trans hname
  obtain ⟨mid, rfl⟩ := htail
  obtain ⟨k, rfl, -⟩ := Literal.exists_of_strip? h₁
  exact ⟨k, mid, by rw [hparen], by rw [h₁, hparen]⟩

/-- A header stands in a text that starts at offset `i`: where it starts, where it ends, and how it
was read. -/
def Stands (keyword : Bytes) (names : NamePattern) (i : Nat) (s : Bytes) (h : Header) : Prop :=
  ∃ front text rest before, s = front ++ text ∧ h.start = i + front.length ∧
    h.stop + rest.length = i + s.length ∧ readHeader? keyword names before text = some (h.name, rest)

section

variable {keyword : Bytes} {names : NamePattern} {i : Nat} {s : Bytes} {h : Header}

/-- A header at the head of a text. -/
theorem stands_head {before : Option UInt8} {b : UInt8} {name rest : Bytes}
    (hread : readHeader? keyword names before (b :: s) = some (name, rest)) :
    Stands keyword names i (b :: s) ⟨i, i + 1 + (s.length - rest.length), name⟩ := by
  obtain ⟨k, mid, hs, -⟩ := exists_of_readHeader? hread
  have hlen := congrArg List.length hs
  simp only [List.length_append, List.length_cons] at hlen
  refine ⟨[], b :: s, rest, before, rfl, rfl, ?_, hread⟩
  dsimp only
  rw [List.length_cons]
  omega

/-- A header stands where it stood when a byte is put in front of the text. -/
theorem Stands.cons (b : UInt8) (hs : Stands keyword names (i + 1) s h) :
    Stands keyword names i (b :: s) h := by
  obtain ⟨front, text, rest, before, rfl, hstart, hstop, hread⟩ := hs
  refine ⟨b :: front, text, rest, before, rfl, ?_, ?_, hread⟩
  · rw [hstart, List.length_cons]; omega
  · rw [hstop, List.length_cons]; omega

theorem Stands.start_lt_stop (hs : Stands keyword names i s h) : h.start < h.stop := by
  obtain ⟨front, text, rest, before, rfl, hstart, hstop, hread⟩ := hs
  obtain ⟨k, mid, rfl, -⟩ := exists_of_readHeader? hread
  simp only [List.length_append, List.length_cons] at hstop
  omega

theorem stands_of_mem_allHeadersFrom {before : Option UInt8}
    (hmem : h ∈ allHeadersFrom keyword names i before s) : Stands keyword names i s h := by
  fun_induction allHeadersFrom keyword names i before s with
  | case1 => simp at hmem
  | case2 i before b s name rest hread ih =>
    rcases List.mem_cons.1 hmem with rfl | hmem
    · exact stands_head hread
    · exact (ih hmem).cons b
  | case3 i before b s hnone ih => exact (ih hmem).cons b

/-- Among all headers of a text are those that start behind its first byte. -/
theorem allHeadersFrom_cons_sublist (i : Nat) (before : Option UInt8) (b : UInt8) (s : Bytes) :
    (allHeadersFrom keyword names (i + 1) (some b) s).Sublist (allHeadersFrom keyword names i before (b :: s)) := by
  rw [allHeadersFrom]
  split
  · exact List.sublist_cons_self _ _
  · exact List.Sublist.refl _

/-- The search finds headers only. -/
theorem headersFrom_sublist (skip i : Nat) (before : Option UInt8) (s : Bytes) :
    (headersFrom keyword names skip i before s).Sublist (allHeadersFrom keyword names i before s) := by
  fun_induction headersFrom keyword names skip i before s with
  | case1 => exact List.nil_sublist _
  | case2 before skip i b s ih => exact ih.trans (allHeadersFrom_cons_sublist i before b s)
  | case3 i before b s name rest hread ih =>
    rw [allHeadersFrom, hread]
    exact ih.cons_cons _
  | case4 i before b s hnone ih => exact ih.trans (allHeadersFrom_cons_sublist i before b s)

/-- Every header that is found in a text stands there. -/
theorem stands_of_mem_headersFrom {skip : Nat} {before : Option UInt8}
    (hmem : h ∈ headersFrom keyword names skip i before s) : Stands keyword names i s h :=
  stands_of_mem_allHeadersFrom ((headersFrom_sublist skip i before s).subset hmem)

/-- A header at the top level starts at a code byte at depth zero. -/
theorem of_mem_topLevel (hmem : h ∈ topLevel keyword names s) :
    Stands keyword names 0 s h ∧ ∃ v ∈ Scan.visits s 0, v.offset = h.start ∧ v.depth = 0 := by
  unfold topLevel at hmem
  split at hmem
  · simp at hmem
  · obtain ⟨hhead, hvisit⟩ := List.mem_filter.1 hmem
    obtain ⟨v, hv, hoff⟩ := List.any_eq_true.1 hvisit
    rw [Bool.and_eq_true, beq_iff_eq, beq_iff_eq] at hoff
    exact ⟨stands_of_mem_headersFrom hhead, v, hv, hoff⟩

end

end Spotlight.Group
