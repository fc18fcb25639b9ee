import Spotlight.Proofs.Group.Reading

/-!
# The grammar of a header

The header of a named group is said here by its parts, without a reader: the keyword and a parenthesis, the name between
two quotes, a comma, a function literal without parameters, and the brace that opens its body, with white space between
the parts.

* `Group.IsFunction`, `Group.HasArgument`, `Group.HasHeader` — the rules;
* `Group.hasArgument_iff` — what stands between the name and the body;
* `Group.readHeader?_exactly_iff` — a header is read exactly where the rules have one.
-/

namespace Spotlight.Group

open Bytes

/-! ### The rules -/

/-- A function literal without parameters, up to its body. -/
inductive IsFunction : Bytes → Prop
  | arrow {v w : Bytes} : v.all isBlank = true → w.all isBlank = true →
      IsFunction (lparen :: (v ++ rparen :: (w ++ Bytes.ofString "=>")))
  | word {v w : Bytes} : v.all isBlank = true → w.all isBlank = true →
      IsFunction (Bytes.ofString "function" ++ (v ++ lparen :: (w ++ [rparen])))

/-- A function literal, with or without `async` in front of it. -/
inductive IsArgument : Bytes → Prop
  | plain {f : Bytes} : IsFunction f → IsArgument f
  | async {w f : Bytes} : w.all isBlank = true → IsFunction f →
      IsArgument (Bytes.ofString "async" ++ (w ++ f))

/-- What stands between the name and the body of a group, up to and with the brace: a comma and a function literal. -/
inductive HasArgument : (text rest : Bytes) → Prop
  | intro {v w f x rest : Bytes} : v.all isBlank = true → w.all isBlank = true → IsArgument f →
      x.all isBlank = true → HasArgument (v ++ comma :: (w ++ (f ++ (x ++ lbrace :: rest)))) rest

/-- The text starts with the header of a group of that name, and goes on with `rest`. The quotes need not be the same;
the name matches the bytes `m` between them. -/
inductive HasHeader (keyword name : Bytes) : (text rest : Bytes) → Prop
  | intro {u m tail rest : Bytes} {q q' : UInt8} : u.all isBlank = true → Scan.isDelimiter q = true →
      Literal.strip? name (m ++ q' :: tail) = some (q' :: tail) → Scan.isDelimiter q' = true →
      HasArgument tail rest → HasHeader keyword name (keyword ++ lparen :: (u ++ q :: (m ++ q' :: tail))) rest

/-! ### White space between the parts -/

theorem skipBlanks_eq_cons_iff {b : UInt8} (hb : isBlank b = false) {s rest : Bytes} :
    skipBlanks s = b :: rest ↔ ∃ w, w.all isBlank = true ∧ s = w ++ b :: rest := by
  constructor
  · intro h
    refine ⟨s.takeWhile isBlank, List.all_takeWhile, ?_⟩
    rw [← h]
    exact List.takeWhile_append_dropWhile.symm
  · intro h
    obtain ⟨w, hw, hs⟩ := h
    rw [hs]
    exact skipBlanks_append hw hb rest

/-- White space is skipped in front of something solid. -/
theorem skip_eq_some_iff {p : Bytes → Option Bytes} (hp : StartsSolid p) {s rest : Bytes} :
    p (skipBlanks s) = some rest ↔ ∃ w t, w.all isBlank = true ∧ s = w ++ t ∧ p t = some rest := by
  constructor
  · intro h
    exact ⟨s.takeWhile isBlank, skipBlanks s, List.all_takeWhile, List.takeWhile_append_dropWhile.symm, h⟩
  · intro h
    obtain ⟨w, t, hw, hs, h⟩ := h
    obtain ⟨b, t', rfl, hb⟩ := hp t rest h
    rw [hs, skipBlanks_append hw hb]
    exact h

theorem skipStrip_eq_some_iff {b : UInt8} (hb : isBlank b = false) {l s rest : Bytes} :
    Bytes.strip? (b :: l) (skipBlanks s) = some rest ↔
      ∃ w, w.all isBlank = true ∧ s = w ++ b :: (l ++ rest) := by
  rw [Bytes.strip?_eq_some_iff]
  exact skipBlanks_eq_cons_iff hb

/-! ### The function literal -/

theorem stripParams?_eq_some_iff {s rest : Bytes} :
    stripParams? s = some rest ↔ ∃ w, w.all isBlank = true ∧ s = lparen :: (w ++ rparen :: rest) := by
  constructor
  · intro h
    obtain ⟨t, ht, hclose⟩ := Option.bind_eq_some_iff.1 h
    obtain ⟨w, hw, rfl⟩ := (skipStrip_eq_some_iff (by decide)).1 hclose
    exact ⟨w, hw, Bytes.eq_append_of_strip? ht⟩
  · intro h
    obtain ⟨w, hw, hs⟩ := h
    rw [hs]
    exact (skipStrip_eq_some_iff (l := []) (by decide)).2 ⟨w, hw, rfl⟩

theorem stripArrow?_eq_some_iff {s rest : Bytes} : stripArrow? s = some rest ↔
    ∃ v w, v.all isBlank = true ∧ w.all isBlank = true ∧
      s = lparen :: (v ++ rparen :: (w ++ (Bytes.ofString "=>" ++ rest))) := by
  have hsolid : isBlank 0x3d = false := by decide
  constructor
  · intro h
    obtain ⟨t, ht, harrow⟩ := Option.bind_eq_some_iff.1 h
    obtain ⟨v, hv, rfl⟩ := stripParams?_eq_some_iff.1 ht
    obtain ⟨w, hw, rfl⟩ := (skipStrip_eq_some_iff hsolid).1 harrow
    exact ⟨v, w, hv, hw, rfl⟩
  · intro h
    obtain ⟨v, w, hv, hw, hs⟩ := h
    exact Option.bind_eq_some_iff.2 ⟨_, stripParams?_eq_some_iff.2 ⟨v, hv, hs⟩,
      (skipStrip_eq_some_iff hsolid).2 ⟨w, hw, rfl⟩⟩

theorem stripFunction?_eq_some_iff {s rest : Bytes} : stripFunction? s = some rest ↔
    ∃ v w, v.all isBlank = true ∧ w.all isBlank = true ∧
      s = Bytes.ofString "function" ++ (v ++ lparen :: (w ++ rparen :: rest)) := by
  constructor
  · intro h
    obtain ⟨t, ht, hskip⟩ := Option.bind_eq_some_iff.1 h
    obtain ⟨v, t', hv, rfl, hparams⟩ := (skip_eq_some_iff startsSolid_stripParams).1 hskip
    obtain ⟨w, hw, rfl⟩ := stripParams?_eq_some_iff.1 hparams
    exact ⟨v, w, hv, hw, Bytes.eq_append_of_strip? ht⟩
  · intro h
    obtain ⟨v, w, hv, hw, hs⟩ := h
    exact Option.bind_eq_some_iff.2 ⟨_, Bytes.strip?_eq_some_iff.2 hs,
      (skip_eq_some_iff startsSolid_stripParams).2 ⟨v, _, hv, rfl, stripParams?_eq_some_iff.2 ⟨w, hw, rfl⟩⟩⟩

theorem stripHead?_eq_some_iff {s rest : Bytes} :
    stripHead? s = some rest ↔ ∃ f, IsFunction f ∧ s = f ++ rest := by
  constructor
  · intro h
    cases harrow : stripArrow? s with
    | some t =>
      obtain rfl : t = rest := by simpa [stripHead?, harrow] using h
      obtain ⟨v, w, hv, hw, rfl⟩ := stripArrow?_eq_some_iff.1 harrow
      exact ⟨_, .arrow hv hw, by simp⟩
    | none =>
      have hword : stripFunction? s = some rest := by simpa [stripHead?, harrow] using h
      obtain ⟨v, w, hv, hw, rfl⟩ := stripFunction?_eq_some_iff.1 hword
      exact ⟨_, .word hv hw, by simp⟩
  · intro h
    obtain ⟨f, hf, hs⟩ := h
    rw [hs]
    cases hf with
    | @arrow v w hv hw =>
      have harrow : stripArrow? (lparen :: (v ++ rparen :: (w ++ Bytes.ofString "=>")) ++ rest) = some rest :=
        stripArrow?_eq_some_iff.2 ⟨v, w, hv, hw, by simp⟩
      rw [stripHead?, harrow, Option.orElse_some]
    | @word v w hv hw =>
      -- an arrow function starts with a parenthesis
      have hnone : stripArrow? (Bytes.ofString "function" ++ (v ++ lparen :: (w ++ [rparen])) ++ rest) = none := rfl
      rw [stripHead?, hnone, Option.orElse_none]
      exact stripFunction?_eq_some_iff.2 ⟨v, w, hv, hw, by simp⟩

/-- The word `async` is skipped, and no function literal starts with it. -/
theorem stripAsync?_eq_some_iff {s rest : Bytes} :
    stripHead? (skipAsync s) = some rest ↔ ∃ f, IsArgument f ∧ s = f ++ rest := by
  have hskip : ∀ t, skipAsync (Bytes.ofString "async" ++ t) = skipBlanks t := by
    intro t
    rw [skipAsync, Bytes.strip?_append]
  constructor
  · intro h
    cases hasync : Bytes.strip? "async" s with
    | some t =>
      obtain rfl : s = Bytes.ofString "async" ++ t := Bytes.eq_append_of_strip? hasync
      rw [hskip] at h
      obtain ⟨w, t', hw, rfl, hhead⟩ := (skip_eq_some_iff startsSolid_stripHead).1 h
      obtain ⟨f, hf, rfl⟩ := stripHead?_eq_some_iff.1 hhead
      exact ⟨_, .async hw hf, by simp⟩
    | none =>
      rw [skipAsync, hasync] at h
      obtain ⟨f, hf, rfl⟩ := stripHead?_eq_some_iff.1 h
      exact ⟨f, .plain hf, rfl⟩
  · intro h
    obtain ⟨f, hf, hs⟩ := h
    rw [hs]
    cases hf with
    | plain hf =>
      have hstay : skipAsync (f ++ rest) = f ++ rest := by cases hf <;> rfl
      rw [hstay]
      exact stripHead?_eq_some_iff.2 ⟨f, hf, rfl⟩
    | @async w f hw hf =>
      rw [List.append_assoc, List.append_assoc, hskip]
      exact (skip_eq_some_iff startsSolid_stripHead).2
        ⟨w, f ++ rest, hw, rfl, stripHead?_eq_some_iff.2 ⟨f, hf, rfl⟩⟩

theorem stripArgument?_eq_some_iff {s rest : Bytes} : stripArgument? s = some rest ↔
    ∃ v w f, v.all isBlank = true ∧ w.all isBlank = true ∧ IsArgument f ∧
      s = v ++ comma :: (w ++ (f ++ rest)) := by
  constructor
  · intro h
    obtain ⟨t, ht, hskip⟩ := Option.bind_eq_some_iff.1 h
    obtain ⟨v, hv, rfl⟩ := (skipStrip_eq_some_iff (by decide)).1 ht
    obtain ⟨w, t', hw, rfl, hhead⟩ := (skip_eq_some_iff startsSolid_skipAsync).1 hskip
    obtain ⟨f, hf, rfl⟩ := stripAsync?_eq_some_iff.1 hhead
    exact ⟨v, w, f, hv, hw, hf, rfl⟩
  · intro h
    obtain ⟨v, w, f, hv, hw, hf, hs⟩ := h
    exact Option.bind_eq_some_iff.2 ⟨_, (skipStrip_eq_some_iff (l := []) (by decide)).2 ⟨v, hv, hs⟩,
      (skip_eq_some_iff startsSolid_skipAsync).2 ⟨w, f ++ rest, hw, rfl, stripAsync?_eq_some_iff.2 ⟨f, hf, rfl⟩⟩⟩

theorem hasArgument_iff {s rest : Bytes} :
    HasArgument s rest ↔ ∃ last, stripArgument? s = some last ∧ skipBlanks last = lbrace :: rest := by
  constructor
  · intro h
    cases h with
    | @intro v w f x _ hv hw hf hx =>
      exact ⟨_, stripArgument?_eq_some_iff.2 ⟨v, w, f, hv, hw, hf, rfl⟩, skipBlanks_append hx (by decide) rest⟩
  · intro h
    obtain ⟨last, harg, hbrace⟩ := h
    obtain ⟨v, w, f, hv, hw, hf, rfl⟩ := stripArgument?_eq_some_iff.1 harg
    obtain ⟨x, hx, rfl⟩ := (skipBlanks_eq_cons_iff (by decide)).1 hbrace
    exact .intro hv hw hf hx

/-! ### The header -/

/-- A name is read between two quotes of any kind. -/
theorem readExactly?_eq_some_iff {name s n rest : Bytes} :
    NamePattern.read? (.exactly name) s = some (n, rest) ↔ n = name ∧ ∃ q m q', s = q :: (m ++ q' :: rest) ∧
      Scan.isDelimiter q = true ∧ Scan.isDelimiter q' = true ∧
      Literal.strip? name (m ++ q' :: rest) = some (q' :: rest) := by
  constructor
  · intro h
    cases s with
    | nil => simp [NamePattern.read?] at h
    | cons q s =>
      rw [NamePattern.read?] at h
      split at h
      · rename_i hq
        split at h
        · rename_i q' t hstrip
          split at h
          · rename_i hq'
            cases h
            obtain ⟨m, rfl, -⟩ := Literal.exists_of_strip? hstrip
            exact ⟨rfl, q, m, q', rfl, hq, hq', hstrip⟩
          · simp at h
        · simp at h
      · simp at h
  · intro h
    obtain ⟨hn, q, m, q', hs, hq, hq', hstrip⟩ := h
    rw [hs, hn, NamePattern.read?, if_pos hq, hstrip]
    exact if_pos hq'

/-- **A header is read exactly where the rules have one.** -/
theorem readHeader?_exactly_iff {keyword name : Bytes} (hp : Literal.IsPlain keyword) {before : Option UInt8}
    {s n rest : Bytes} : readHeader? keyword (.exactly name) before s = some (n, rest) ↔
      n = name ∧ isBoundary before s.head? = true ∧ HasHeader keyword name s rest := by
  rw [readHeader?_eq_some_iff]
  constructor
  · intro h
    obtain ⟨hbound, inner, tail, last, hkey, hname, harg, hbrace⟩ := h
    rw [Literal.strip?_eq_bytes hp] at hkey
    obtain ⟨rfl, q, m, q', hinner, hq, hq', hstrip⟩ := readExactly?_eq_some_iff.1 hname
    obtain ⟨u, hu, rfl⟩ := (skipBlanks_eq_cons_iff (not_blank_of_isDelimiter hq)).1 hinner
    have htail : HasArgument tail rest := hasArgument_iff.2 ⟨last, harg, hbrace⟩
    rw [Bytes.eq_append_of_strip? hkey] at hbound ⊢
    exact ⟨rfl, hbound, .intro hu hq hstrip hq' htail⟩
  · intro h
    obtain ⟨hn, hbound, hs⟩ := h
    cases hs with
    | @intro u m tail _ q q' hu hq hstrip hq' htail =>
      have hkey : Literal.strip? keyword (keyword ++ lparen :: (u ++ q :: (m ++ q' :: tail))) =
          some (lparen :: (u ++ q :: (m ++ q' :: tail))) := by
        rw [Literal.strip?_eq_bytes hp, Bytes.strip?_append]
      have hname : NamePattern.read? (.exactly name) (skipBlanks (u ++ q :: (m ++ q' :: tail))) =
          some (n, tail) := by
        rw [skipBlanks_append hu (not_blank_of_isDelimiter hq)]
        exact readExactly?_eq_some_iff.2 ⟨hn, q, m, q', rfl, hq, hq', hstrip⟩
      obtain ⟨last, harg, hbrace⟩ := hasArgument_iff.1 htail
      exact ⟨hbound, _, tail, last, hkey, hname, harg, hbrace⟩

end Spotlight.Group
