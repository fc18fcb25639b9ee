import Mathlib.Data.List.Basic
import Spotlight.Proofs.Activation.Basic
import Spotlight.Proofs.Group.Grammar

/-!
# Headers lie apart

The search for headers goes on behind a header it has found, so a header that starts inside another one is passed over.
There is none: the keyword and the parenthesis behind it fit into no part of a header but its own, unless the name holds
them.

* `Group.IsKeyword` — the bytes of a keyword;
* `Literal.infix_of_strip?` — ASCII text in what a literal matches stands in the literal;
* `Group.HasHeader.apart` — no header starts inside another one;
* `Group.headersFrom_eq_allHeadersFrom` — the search passes over no header.
-/

namespace Spotlight

open Bytes

namespace Literal

/-- ASCII text at the head of what a literal matches stands at the head of the literal. -/
theorem prefix_of_strip? {lit s rest a t : Bytes} (h : strip? lit s = some rest) (hs : s = a ++ t)
    (ha : ∀ b ∈ a, b < 0x80) (hle : rest.length ≤ t.length) : a <+: lit := by
  fun_induction strip? lit s generalizing a with
  | case1 s =>
    have hlen := congrArg List.length ((Option.some.inj h).symm.trans hs)
    rw [List.length_append] at hlen
    obtain rfl : a = [] := List.eq_nil_of_length_eq_zero (by omega)
    exact List.nil_prefix
  | case2 => simp at h
  | case3 lit b s r hr =>
    cases a with
    | nil => exact List.nil_prefix
    | cons c a =>
      obtain rfl : b = c := (List.cons.inj hs).1
      exact absurd (ha b List.mem_cons_self) (not_ascii_of_replacement hr)
  | case4 => simp at h
  | case5 lit b s _ ih =>
    cases a with
    | nil => exact List.nil_prefix
    | cons c a =>
      obtain ⟨rfl, htail⟩ := List.cons.inj hs
      rw [List.prefix_cons_inj]
      exact ih h htail fun d hd => ha d (List.mem_cons_of_mem b hd)
  | case6 => simp at h

/-- A text stands behind bytes that it does not have. -/
theorem infix_of_append {a x y : Bytes} (hne : a ≠ []) (hx : ∀ b ∈ x, b ∉ a) (h : a <:+: x ++ y) : a <:+: y := by
  induction x with
  | nil => exact h
  | cons c x ih =>
    rcases List.infix_cons_iff.1 h with hpre | hin
    · cases a with
      | nil => exact absurd rfl hne
      | cons b a =>
        obtain rfl : b = c := (List.cons_prefix_cons.1 hpre).1
        exact absurd List.mem_cons_self (hx b List.mem_cons_self)
    · exact ih (fun b hb => hx b (List.mem_cons_of_mem c hb)) hin

/-- ASCII text in what a literal matches stands in the literal. -/
theorem infix_of_strip? {lit s rest m a : Bytes} (h : strip? lit s = some rest) (hs : s = m ++ rest)
    (ha : ∀ b ∈ a, b < 0x80) (hne : a ≠ []) (hin : a <:+: m) : a <:+: lit := by
  fun_induction strip? lit s generalizing m with
  | case1 s =>
    have hlen := congrArg List.length ((Option.some.inj h).symm.trans hs)
    rw [List.length_append] at hlen
    obtain rfl : m = [] := List.eq_nil_of_length_eq_zero (by omega)
    exact absurd (List.infix_nil.1 hin) hne
  | case2 => simp at h
  | case3 lit b s r hr =>
    rename_i ih
    -- the bytes of a character that is read as U+FFFD are not ASCII
    obtain ⟨m', hm', -⟩ := exists_of_strip? h
    have hboth : m ++ rest = r.raw ++ m' ++ rest := by
      rw [← hs, List.append_assoc, ← hm', Rune.raw_append_drop]
    rw [List.append_cancel_right hboth] at hin
    have hfree : ∀ c ∈ r.raw, c ∉ a := fun c hc hmem =>
      UInt8.not_lt.2 (Rune.le_of_mem_raw (not_ascii_of_replacement hr) hc) (ha c hmem)
    exact (ih h hm' (infix_of_append hne hfree hin)).trans ⟨Rune.replacementBytes, [], by simp [Rune.replacementBytes]⟩
  | case4 => simp at h
  | case5 lit b s _ ih =>
    cases m with
    | nil => exact absurd (List.infix_nil.1 hin) hne
    | cons c m =>
      obtain ⟨rfl, htail⟩ := List.cons.inj hs
      rcases List.infix_cons_iff.1 hin with hpre | hin
      · obtain ⟨c, a, rfl⟩ := List.exists_cons_of_ne_nil hne
        obtain ⟨rfl, t, rfl⟩ := List.cons_prefix_cons.1 hpre
        have hlit : a <+: lit := prefix_of_strip? h (htail.trans (List.append_assoc a t rest))
          (fun d hd => ha d (List.mem_cons_of_mem c hd)) (List.suffix_append t rest).length_le
        exact ((List.prefix_cons_inj c).2 hlit).isInfix
      · exact (ih h htail hin).trans (List.infix_cons (List.infix_refl lit))
  | case6 => simp at h

theorem isPlain_of_ascii {lit : Bytes} (h : ∀ b ∈ lit, b < 0x80) : IsPlain lit := by
  intro hin
  have hmem : 0xef ∈ lit := hin.subset (by decide)
  exact absurd (h 0xef hmem) (by decide)

end Literal

namespace Group

/-! ### The bytes of a keyword -/

/-- Is `b` a byte of a keyword: an ASCII letter, a digit, an underscore, a dollar sign or a full stop? -/
def isKeywordByte (b : UInt8) : Bool := isWord b || b == dollar || b == 0x2e

/-- A keyword of such bytes. -/
def IsKeyword (keyword : Bytes) : Prop := ∀ b ∈ keyword, isKeywordByte b = true

instance (keyword : Bytes) : Decidable (IsKeyword keyword) :=
  decidable_of_iff (keyword.all isKeywordByte = true) List.all_eq_true

theorem ascii_of_isKeywordByte {b : UInt8} (h : isKeywordByte b = true) : b < 0x80 := by
  simp only [isKeywordByte, Bool.or_eq_true, beq_iff_eq] at h
  rcases h with (h | rfl) | rfl
  · exact (ascii_of_isWord h).1
  · decide
  · decide

theorem not_isKeywordByte_of_isDelimiter {q : UInt8} (h : Scan.isDelimiter q = true) : isKeywordByte q = false := by
  simp only [Scan.isDelimiter, Bool.or_eq_true, beq_iff_eq] at h
  rcases h with (rfl | rfl) | rfl <;> rfl

theorem not_lparen_of_blank {w : Bytes} (hw : w.all isBlank = true) : lparen ∉ w := by
  intro hmem
  exact absurd (List.all_eq_true.1 hw lparen hmem) (by decide)

section

variable {keyword name : Bytes} (hkey : IsKeyword keyword)
include hkey

theorem IsKeyword.ascii : ∀ b ∈ keyword, b < 0x80 := fun b hb => ascii_of_isKeywordByte (hkey b hb)

theorem IsKeyword.isPlain : Literal.IsPlain keyword := Literal.isPlain_of_ascii hkey.ascii

theorem IsKeyword.not_lparen : lparen ∉ keyword := fun h => absurd (hkey lparen h) (by decide)

/-! ### A call in a part of a text -/

/-- The keyword and a parenthesis stand behind a byte of another kind, or in front of it. -/
theorem suffix_of_foreign {x y t : Bytes} {b : UInt8} (hb : isKeywordByte b = false) (hparen : b ≠ lparen)
    (h : keyword ++ lparen :: t <:+ x ++ b :: y) :
    keyword ++ lparen :: t <:+ y ∨ ∃ t', keyword ++ lparen :: t' <:+ x ∧ t = t' ++ b :: y := by
  have hforeign : b ∉ keyword := fun hmem => by
    rw [hkey b hmem] at hb
    cases hb
  have hhead : ∀ k t' : Bytes, b :: t' ≠ k ++ lparen :: t ∨ b ∈ k := by
    intro k t'
    cases k with
    | nil => exact Or.inl fun heq => hparen (List.cons.inj heq).1
    | cons c k =>
      by_cases hbc : b = c
      · exact Or.inr (hbc ▸ List.mem_cons_self)
      · exact Or.inl fun heq => hbc (List.cons.inj heq).1
  obtain ⟨p, hp⟩ := h
  rcases List.append_eq_append_iff.1 hp with ⟨a, hx, heq⟩ | ⟨c, hpc, heq⟩
  · -- the call starts in front of the byte
    rcases List.append_eq_append_iff.1 heq with ⟨a', ha, ht⟩ | ⟨c, hc, ht⟩
    · cases a' with
      | nil => exact absurd (List.cons.inj ht).1.symm hparen
      | cons d t' =>
        obtain ⟨rfl, rfl⟩ := List.cons.inj ht
        exact Or.inr ⟨t', ⟨p, by rw [hx, ha]⟩, rfl⟩
    · rcases hhead c y with hne | hmem
      · exact absurd ht hne
      · exact absurd (by rw [hc]; exact List.mem_append_right a hmem) hforeign
  · -- the call starts at the byte or behind it
    cases c with
    | nil =>
      rcases hhead keyword y with hne | hmem
      · exact absurd heq hne
      · exact absurd hmem hforeign
    | cons d c =>
      obtain ⟨rfl, rfl⟩ := List.cons.inj heq
      exact Or.inl (List.suffix_append c _)

end

/-- Where a text has one parenthesis only, a call in it has that one. -/
theorem eq_of_single_lparen {keyword x y t : Bytes} (hx : lparen ∉ x) (hy : lparen ∉ y)
    (h : keyword ++ lparen :: t <:+ x ++ lparen :: y) : keyword <:+ x ∧ t = y := by
  obtain ⟨p, hp⟩ := h
  rw [← List.append_assoc] at hp
  obtain ⟨hfront, -, htail⟩ := (List.append_cons_inj_of_notMem hx hy).1 hp.symm
  exact ⟨⟨p, hfront.symm⟩, htail.symm⟩

theorem lparen_mem_of_suffix {keyword x t : Bytes} (h : keyword ++ lparen :: t <:+ x) : lparen ∈ x :=
  h.subset (List.mem_append_right keyword List.mem_cons_self)

/-! ### A header in another one -/

/-- The argument of a header has one parenthesis that opens, the one of the parameter list. -/
theorem IsArgument.exists_params {f : Bytes} (h : IsArgument f) : ∃ a w b, f = a ++ lparen :: (w ++ rparen :: b) ∧
    lparen ∉ a ∧ w.all isBlank = true ∧ lparen ∉ b := by
  have hfun : ∀ g, IsFunction g → ∃ a w b, g = a ++ lparen :: (w ++ rparen :: b) ∧ lparen ∉ a ∧
      w.all isBlank = true ∧ lparen ∉ b := by
    intro g hg
    cases hg with
    | @arrow v w hv hw =>
      refine ⟨[], v, w ++ Bytes.ofString "=>", rfl, by simp, hv, ?_⟩
      rw [List.mem_append, not_or]
      exact ⟨not_lparen_of_blank hw, by decide⟩
    | @word v w hv hw =>
      refine ⟨Bytes.ofString "function" ++ v, w, [], by simp, ?_, hw, by simp⟩
      rw [List.mem_append, not_or]
      exact ⟨by decide, not_lparen_of_blank hv⟩
  cases h with
  | plain hf => exact hfun f hf
  | @async v g hv hg =>
    obtain ⟨a, w, b, rfl, ha, hw, hb⟩ := hfun g hg
    refine ⟨Bytes.ofString "async" ++ (v ++ a), w, b, by simp, ?_, hw, hb⟩
    rw [List.mem_append, List.mem_append, not_or, not_or]
    exact ⟨by decide, not_lparen_of_blank hv, ha⟩

section

variable {keyword name : Bytes} (hkey : IsKeyword keyword)
include hkey

/-- A call that starts in the argument of a header has an empty parameter list, or stands behind the header. -/
theorem HasArgument.suffix_or {text rest t : Bytes} (h : HasArgument text rest)
    (hs : keyword ++ lparen :: t <:+ text) :
    keyword ++ lparen :: t <:+ rest ∨ ∃ w y, w.all isBlank = true ∧ t = w ++ rparen :: y := by
  cases h with
  | @intro v w f x _ hv hw hf hx =>
    obtain ⟨a, p, b, rfl, ha, hp, hb⟩ := hf.exists_params
    have hparts : v ++ comma :: (w ++ (a ++ lparen :: (p ++ rparen :: b) ++ (x ++ lbrace :: rest))) =
        v ++ comma :: (w ++ a ++ lparen :: p ++ rparen :: (b ++ x ++ lbrace :: rest)) := by
      simp only [List.append_assoc, List.cons_append]
    rw [hparts] at hs
    rcases suffix_of_foreign hkey (by decide) (by decide) hs with hs | ⟨t', hin, -⟩
    · rcases suffix_of_foreign hkey (by decide) (by decide) hs with hs | ⟨t', hin, rfl⟩
      · rcases suffix_of_foreign hkey (by decide) (by decide) hs with hs | ⟨t', hin, -⟩
        · exact Or.inl hs
        · rcases List.mem_append.1 (lparen_mem_of_suffix hin) with hmem | hmem
          · exact absurd hmem hb
          · exact absurd hmem (not_lparen_of_blank hx)
      · have hfront : lparen ∉ w ++ a := by
          rw [List.mem_append, not_or]
          exact ⟨not_lparen_of_blank hw, ha⟩
        obtain ⟨-, rfl⟩ := eq_of_single_lparen hfront (not_lparen_of_blank hp) hin
        exact Or.inr ⟨t', _, hp, rfl⟩
    · exact absurd (lparen_mem_of_suffix hin) (not_lparen_of_blank hv)

/-- **No header starts inside another one,** when its name does not hold the keyword and a parenthesis. -/
theorem HasHeader.apart (hfree : ¬ keyword ++ [lparen] <:+: name) {s u rest rest' : Bytes}
    (h : HasHeader keyword name s rest) (h' : HasHeader keyword name u rest') (hu : u <:+ s) :
    u = s ∨ u <:+ rest := by
  cases h' with
  | @intro w' m' tail' _ p p' hw' hp _ _ _ =>
    cases h with
    | @intro w m tail _ q q' hw hq hstrip hq' htail =>
      have hparts : keyword ++ lparen :: (w ++ q :: (m ++ q' :: tail)) =
          keyword ++ lparen :: w ++ q :: (m ++ q' :: tail) := by simp
      rw [hparts] at hu
      have hquote : ∀ {q}, Scan.isDelimiter q = true → q ≠ lparen := by
        rintro _ hq rfl
        exact absurd hq (by decide)
      rcases suffix_of_foreign hkey (not_isKeywordByte_of_isDelimiter hq) (hquote hq) hu with hu | ⟨t, hin, ht⟩
      · rcases suffix_of_foreign hkey (not_isKeywordByte_of_isDelimiter hq') (hquote hq') hu with hu | ⟨t, hin, -⟩
        · -- behind the parenthesis of a header stands a quote, no empty parameter list
          rcases htail.suffix_or hkey hu with hu | ⟨v, y, hv, heq⟩
          · exact Or.inr hu
          · have hskip : skipBlanks (w' ++ p :: (m' ++ p' :: tail')) = rparen :: y := by
              rw [heq, skipBlanks_append hv (by decide)]
            rw [skipBlanks_append hw' (not_blank_of_isDelimiter hp)] at hskip
            rw [(List.cons.inj hskip).1] at hp
            exact absurd hp (by decide)
        · have hname : keyword ++ [lparen] <:+: m := by
            obtain ⟨x, rfl⟩ := hin
            exact ⟨x, t, by simp⟩
          refine absurd (Literal.infix_of_strip? hstrip rfl ?_ (by simp) hname) hfree
          intro b hb
          rcases List.mem_append.1 hb with hb | hb
          · exact hkey.ascii b hb
          · rw [List.mem_singleton.1 hb]
            decide
      · obtain ⟨-, rfl⟩ := eq_of_single_lparen hkey.not_lparen (not_lparen_of_blank hw) hin
        left
        rw [ht]

/-! ### The search for headers -/

/-- **The search passes over no header.** The bytes it skips belong to a header, and none starts among them. -/
theorem headersFrom_eq_allHeadersFrom (hfree : ¬ keyword ++ [lparen] <:+: name) {skip i : Nat}
    {before : Option UInt8} {s : Bytes}
    (hskip : ∀ u, u <:+ s → s.length < u.length + skip → ∀ rest, ¬ HasHeader keyword name u rest) :
    headersFrom keyword (.exactly name) skip i before s = allHeadersFrom keyword (.exactly name) i before s := by
  have hread : ∀ {before s n rest}, readHeader? keyword (.exactly name) before s = some (n, rest) →
      HasHeader keyword name s rest := fun h => ((readHeader?_exactly_iff hkey.isPlain).1 h).2.2
  fun_induction headersFrom keyword (.exactly name) skip i before s with
  | case1 => rfl
  | case2 skip i before b s ih =>
    have hnone : ∀ before, readHeader? keyword (.exactly name) before (b :: s) = none := by
      intro before
      rw [Option.eq_none_iff_forall_ne_some]
      rintro ⟨n, rest⟩ h
      exact hskip (b :: s) (List.suffix_refl _) (by omega) rest (hread h)
    rw [allHeadersFrom, hnone]
    apply ih
    intro u hu hlen
    refine hskip u (hu.trans (List.suffix_cons b s)) ?_
    rw [List.length_cons]
    omega
  | case3 i before b s n rest h ih =>
    rw [allHeadersFrom, h]
    dsimp only
    rw [ih]
    intro u hu hlen rest' hheader
    rcases (hread h).apart hkey hfree hheader (hu.trans (List.suffix_cons b s)) with rfl | hin
    · have hle := hu.length_le
      rw [List.length_cons] at hle
      omega
    · have hle := hin.length_le
      have hle' := hu.length_le
      omega
  | case4 i before b s h ih =>
    rw [allHeadersFrom, h]
    apply ih
    intro u hu hlen
    have hle := hu.length_le
    omega

end

end Group

end Spotlight
