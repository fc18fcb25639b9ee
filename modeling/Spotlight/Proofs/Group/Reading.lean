import Spotlight.Proofs.Group.Header
import Spotlight.Proofs.Scan.Passage

/-!
# A header is read by its own bytes

Reading a header looks at no byte behind its brace, so a header stays one whatever text follows it.

* `Group.Local` — a reader that looks at nothing behind what it reads, with its combinations;
* `Group.exists_of_readAny?` — a header cut into its parts, and that it is read the same in front of any
  other text;
* `Group.readAny_of_readExactly` — the search for all names finds the header that a search by name
  finds.
-/

namespace Spotlight.Group

open Bytes

theorem inert_of_blank {b : UInt8} (h : isBlank b = true) : Scan.isInert b = true := by
  simp only [isBlank, Bool.or_eq_true, beq_iff_eq] at h
  rcases h with (((rfl | rfl) | rfl) | rfl) | rfl <;> rfl

/-! ### Readers -/

/-- The reader takes inert bytes off the head of a text, and takes them off whatever follows. -/
def Local (p : Bytes → Option Bytes) : Prop :=
  ∀ s rest, p s = some rest →
    ∃ t, s = t ++ rest ∧ t.all Scan.isInert = true ∧ ∀ rest', p (t ++ rest') = some rest'

/-- The reader starts with a byte that is no white space. -/
def StartsSolid (p : Bytes → Option Bytes) : Prop :=
  ∀ s rest, p s = some rest → ∃ b t, s = b :: t ∧ isBlank b = false

section

variable {p q : Bytes → Option Bytes}

theorem local_strip {lit : Bytes} (hlit : lit.all Scan.isInert = true) : Local (Bytes.strip? lit) := by
  intro s rest h
  exact ⟨lit, Bytes.eq_append_of_strip? h, hlit, Bytes.strip?_append lit⟩

theorem startsSolid_strip {b : UInt8} (hb : isBlank b = false) (lit : Bytes) :
    StartsSolid (Bytes.strip? (b :: lit)) := by
  intro s rest h
  exact ⟨b, lit ++ rest, Bytes.eq_append_of_strip? h, hb⟩

theorem Local.bind (hp : Local p) (hq : Local q) : Local fun s => (p s).bind q := by
  intro s rest h
  obtain ⟨mid, hmid, hrest⟩ := Option.bind_eq_some_iff.1 h
  obtain ⟨t, rfl, ht, hpt⟩ := hp s mid hmid
  obtain ⟨u, rfl, hu, hqu⟩ := hq mid rest hrest
  refine ⟨t ++ u, (List.append_assoc t u rest).symm, ?_, ?_⟩
  · rw [List.all_append, ht, hu]
    rfl
  · intro rest'
    show (p (t ++ u ++ rest')).bind q = some rest'
    rw [List.append_assoc, hpt]
    exact hqu rest'

theorem StartsSolid.bind (hp : StartsSolid p) : StartsSolid fun s => (p s).bind q := by
  intro s rest h
  obtain ⟨mid, hmid, -⟩ := Option.bind_eq_some_iff.1 h
  exact hp s mid hmid

theorem skipBlanks_append {w : Bytes} (hw : w.all isBlank = true) {b : UInt8} (hb : isBlank b = false)
    (s : Bytes) : skipBlanks (w ++ b :: s) = b :: s := by
  rw [skipBlanks, List.dropWhile_append_of_pos (List.all_eq_true.1 hw),
    List.dropWhile_cons_of_neg (by rw [hb]; decide)]

/-- A reader of something solid may skip white space first. -/
theorem Local.skip (hp : Local p) (hs : StartsSolid p) : Local fun s => p (skipBlanks s) := by
  intro s rest h
  obtain ⟨t, ht, hall, hpt⟩ := hp (skipBlanks s) rest h
  cases t with
  | nil =>
    obtain ⟨b, t, hnil, -⟩ := hs [] [] (hpt [])
    exact absurd hnil (by simp)
  | cons b t =>
    obtain ⟨b', t', hb', hsolid⟩ := hs _ _ h
    obtain rfl : b = b' := by
      rw [ht] at hb'
      exact (List.cons.inj hb').1
    have hblank : (s.takeWhile isBlank).all isBlank = true := List.all_takeWhile
    refine ⟨s.takeWhile isBlank ++ b :: t, ?_, ?_, ?_⟩
    · calc s = s.takeWhile isBlank ++ skipBlanks s := List.takeWhile_append_dropWhile.symm
        _ = s.takeWhile isBlank ++ b :: t ++ rest := by rw [ht, List.append_assoc]
    · rw [List.all_append, hall, Bool.and_true, List.all_eq_true]
      intro d hd
      exact inert_of_blank (List.all_eq_true.1 hblank d hd)
    · intro rest'
      show p (skipBlanks (s.takeWhile isBlank ++ b :: t ++ rest')) = some rest'
      rw [List.append_assoc, List.cons_append, skipBlanks_append hblank hsolid]
      exact hpt rest'

/-- Where the first reader fails on what the second one reads, they are alternatives. -/
theorem Local.orElse (hp : Local p) (hq : Local q) (hs : StartsSolid q)
    (hdisjoint : ∀ b s s', (q (b :: s)).isSome → p (b :: s') = none) :
    Local fun s => (p s).orElse fun _ => q s := by
  intro s rest (h : (p s).orElse (fun _ => q s) = some rest)
  cases hps : p s with
  | some mid =>
    obtain rfl : mid = rest := by simpa [hps] using h
    obtain ⟨t, rfl, ht, hpt⟩ := hp s mid hps
    refine ⟨t, rfl, ht, ?_⟩
    intro rest'
    show (p (t ++ rest')).orElse (fun _ => q (t ++ rest')) = some rest'
    rw [hpt, Option.orElse_some]
  | none =>
    have hqs : q s = some rest := by simpa [hps] using h
    obtain ⟨t, rfl, ht, hqt⟩ := hq s rest hqs
    obtain ⟨b, t', hb, -⟩ := hs _ _ (hqt [])
    rw [List.append_nil] at hb
    subst hb
    refine ⟨b :: t', rfl, ht, ?_⟩
    intro rest'
    have hnone : p (b :: t' ++ rest') = none :=
      hdisjoint b (t' ++ rest) (t' ++ rest') (Option.isSome_iff_exists.2 ⟨rest, hqs⟩)
    show (p (b :: t' ++ rest')).orElse (fun _ => q (b :: t' ++ rest')) = some rest'
    rw [hnone, Option.orElse_none, hqt]

end

/-! ### The argument behind the name -/

theorem local_stripParams : Local stripParams? :=
  (local_strip (by decide)).bind ((local_strip (by decide)).skip (startsSolid_strip (by decide) []))

theorem startsSolid_stripParams : StartsSolid stripParams? := (startsSolid_strip (by decide) []).bind

theorem local_stripArrow : Local stripArrow? :=
  local_stripParams.bind ((local_strip (by decide)).skip (startsSolid_strip (by decide) ">"))

theorem local_stripFunction : Local stripFunction? :=
  (local_strip (by decide)).bind (local_stripParams.skip startsSolid_stripParams)

theorem startsSolid_stripFunction : StartsSolid stripFunction? :=
  (startsSolid_strip (by decide) "unction").bind

/-- A function literal up to its body. -/
def stripHead? (s : Bytes) : Option Bytes := (stripArrow? s).orElse fun _ => stripFunction? s

/-- A function literal starts with a parenthesis or with the word `function`. -/
theorem head_of_stripHead? {b : UInt8} {s rest : Bytes} (h : stripHead? (b :: s) = some rest) :
    b = lparen ∨ b = 0x66 := by
  cases harrow : stripArrow? (b :: s) with
  | some mid =>
    obtain ⟨_, hparams, -⟩ := Option.bind_eq_some_iff.1 harrow
    obtain ⟨_, hparen, -⟩ := Option.bind_eq_some_iff.1 hparams
    exact Or.inl (List.cons.inj (Bytes.eq_append_of_strip? hparen)).1
  | none =>
    have hfun : stripFunction? (b :: s) = some rest := by simpa [stripHead?, harrow] using h
    obtain ⟨_, hword, -⟩ := Option.bind_eq_some_iff.1 hfun
    exact Or.inr (List.cons.inj (Bytes.eq_append_of_strip? hword)).1

theorem local_stripHead : Local stripHead? := by
  apply local_stripArrow.orElse local_stripFunction startsSolid_stripFunction
  intro b s s' hsome
  obtain ⟨rest, hrest⟩ := Option.isSome_iff_exists.1 hsome
  obtain ⟨_, hword, -⟩ := Option.bind_eq_some_iff.1 hrest
  obtain rfl : b = 0x66 := (List.cons.inj (Bytes.eq_append_of_strip? hword)).1
  rfl

theorem startsSolid_stripHead : StartsSolid stripHead? := by
  intro s rest h
  cases s with
  | nil =>
    have hnone : stripHead? [] = none := rfl
    simp [hnone] at h
  | cons b s =>
    refine ⟨b, s, rfl, ?_⟩
    rcases head_of_stripHead? h with rfl | rfl <;> rfl

/-- The word `async` may stand in front. -/
theorem local_skipAsync : Local fun s => stripHead? (skipAsync s) := by
  intro s rest (h : stripHead? (skipAsync s) = some rest)
  cases hasync : Bytes.strip? "async" s with
  | some mid =>
    have hskip : ∀ t, skipAsync (Bytes.ofString "async" ++ t) = skipBlanks t := by
      intro t
      rw [skipAsync, Bytes.strip?_append]
    obtain rfl : s = Bytes.ofString "async" ++ mid := Bytes.eq_append_of_strip? hasync
    rw [hskip] at h
    obtain ⟨t, rfl, ht, hlocal⟩ := local_stripHead.skip startsSolid_stripHead mid rest h
    refine ⟨Bytes.ofString "async" ++ t, (List.append_assoc _ _ _).symm, ?_, ?_⟩
    · rw [List.all_append, ht]
      rfl
    · intro rest'
      show stripHead? (skipAsync (Bytes.ofString "async" ++ t ++ rest')) = some rest'
      rw [List.append_assoc, hskip]
      exact hlocal rest'
  | none =>
    have hskip : skipAsync s = s := by rw [skipAsync, hasync]
    rw [hskip] at h
    obtain ⟨t, rfl, ht, hlocal⟩ := local_stripHead s rest h
    refine ⟨t, rfl, ht, ?_⟩
    intro rest'
    obtain ⟨b, t', hb, -⟩ := startsSolid_stripHead _ _ (hlocal [])
    rw [List.append_nil] at hb
    subst hb
    have hstay : skipAsync (b :: t' ++ rest') = b :: t' ++ rest' := by
      rcases head_of_stripHead? (hlocal rest') with rfl | rfl <;> rfl
    show stripHead? (skipAsync (b :: t' ++ rest')) = some rest'
    rw [hstay]
    exact hlocal rest'

theorem startsSolid_skipAsync : StartsSolid fun s => stripHead? (skipAsync s) := by
  intro s rest (h : stripHead? (skipAsync s) = some rest)
  cases hasync : Bytes.strip? "async" s with
  | some mid => exact ⟨0x61, _, Bytes.eq_append_of_strip? hasync, rfl⟩
  | none =>
    rw [skipAsync, hasync] at h
    exact startsSolid_stripHead s rest h

/-- What stands between the name of a header and the brace: a comma and a function literal. -/
def stripArgument? (s : Bytes) : Option Bytes :=
  (Bytes.strip? [comma] (skipBlanks s)).bind fun s => stripHead? (skipAsync (skipBlanks s))

theorem local_stripArgument : Local stripArgument? :=
  ((local_strip (by decide)).skip (startsSolid_strip (by decide) [])).bind
    (local_skipAsync.skip startsSolid_skipAsync)

/-! ### The header -/

/-- A header is read part by part. -/
theorem readHeader?_eq_some_iff {keyword : Bytes} {names : NamePattern} {before : Option UInt8}
    {s name rest : Bytes} :
    readHeader? keyword names before s = some (name, rest) ↔
      isBoundary before s.head? = true ∧ ∃ inner tail last, Literal.strip? keyword s = some (lparen :: inner) ∧
        names.read? (skipBlanks inner) = some (name, tail) ∧ stripArgument? tail = some last ∧
        skipBlanks last = lbrace :: rest := by
  constructor
  · intro h
    unfold readHeader? at h
    obtain ⟨⟨⟩, hguard, h⟩ := Option.bind_eq_some_iff.1 h
    obtain ⟨s₁, h₁, h⟩ := Option.bind_eq_some_iff.1 h
    obtain ⟨s₂, h₂, h⟩ := Option.bind_eq_some_iff.1 h
    obtain ⟨⟨n, s₃⟩, h₃, h⟩ := Option.bind_eq_some_iff.1 h
    obtain ⟨s₄, h₄, h⟩ := Option.bind_eq_some_iff.1 h
    obtain ⟨s₅, h₅, h⟩ := Option.bind_eq_some_iff.1 h
    obtain ⟨s₆, h₆, h⟩ := Option.bind_eq_some_iff.1 h
    cases h
    have hguard : (if isBoundary before s.head? = true then some () else none) = some () := hguard
    refine ⟨by simpa using hguard, s₂, s₃, s₅, ?_, h₃, ?_, Bytes.eq_append_of_strip? h₆⟩
    · rw [h₁, Bytes.eq_append_of_strip? h₂]
      rfl
    · rw [stripArgument?, h₄]
      exact h₅
  · rintro ⟨hbound, inner, tail, last, hkey, hname, harg, hbrace⟩
    obtain ⟨s₄, hcomma, hhead⟩ := Option.bind_eq_some_iff.1 harg
    refine Option.bind_eq_some_iff.2 ⟨(), if_pos hbound, ?_⟩
    refine Option.bind_eq_some_iff.2 ⟨lparen :: inner, hkey, ?_⟩
    refine Option.bind_eq_some_iff.2 ⟨inner, rfl, ?_⟩
    refine Option.bind_eq_some_iff.2 ⟨(name, tail), hname, ?_⟩
    refine Option.bind_eq_some_iff.2 ⟨s₄, hcomma, ?_⟩
    refine Option.bind_eq_some_iff.2 ⟨last, hhead, ?_⟩
    refine Option.bind_eq_some_iff.2 ⟨rest, ?_, rfl⟩
    rw [hbrace]
    rfl

/-- A name is read up to the first byte of a class that stops it. -/
theorem untilQuote?_eq_some_iff {q : UInt8} {stop : UInt8 → Bool} (hq : stop q = true)
    {s name rest : Bytes} :
    untilQuote? q stop s = some (name, rest) ↔
      s = name ++ q :: rest ∧ ∀ b ∈ name, stop b = false := by
  constructor
  · intro h
    unfold untilQuote? at h
    dsimp only at h
    split at h
    · rename_i b t hdrop
      split at h
      · rename_i hb
        cases h
        refine ⟨?_, ?_⟩
        · rw [← hb, ← hdrop, List.takeWhile_append_dropWhile]
        · intro c hc
          have hall := List.all_eq_true.1 List.all_takeWhile c hc
          simpa using hall
      · simp at h
    · simp at h
  · rintro ⟨rfl, hname⟩
    have hpass : ∀ b ∈ name, (!stop b) = true := by
      intro b hb
      rw [hname b hb]
      rfl
    have htake : (name ++ q :: rest).takeWhile (fun b => !stop b) = name := by
      rw [List.takeWhile_append_of_pos hpass]
      simp [hq]
    have hdrop : (name ++ q :: rest).dropWhile (fun b => !stop b) = q :: rest := by
      rw [List.dropWhile_append_of_pos hpass]
      simp [hq]
    simp only [untilQuote?, htake, hdrop, if_true]

/-- Does the byte end a name that starts with the quote `q`? -/
def endsName (q b : UInt8) : Bool := b == q || (b == lf && q != grave)

/-- A name is read between two quotes of the same kind. -/
theorem readAny?_eq_some_iff {s name rest : Bytes} :
    NamePattern.any.read? s = some (name, rest) ↔
      ∃ q, s = q :: (name ++ q :: rest) ∧ Scan.isDelimiter q = true ∧ ∀ b ∈ name, endsName q b = false := by
  cases s with
  | nil => simp [NamePattern.read?]
  | cons q s =>
    have hend : endsName q q = true := by simp [endsName]
    have hread : NamePattern.any.read? (q :: s) =
        if Scan.isDelimiter q then untilQuote? q (endsName q) s else none := by
      by_cases hgrave : q = grave
      · subst hgrave
        have hclass : endsName grave = fun b => b == grave := by
          funext b
          simp [endsName]
        rw [hclass]
        rfl
      · have hclass : endsName q = fun b => b == q || b == lf := by
          have hq : (q != grave) = true := bne_iff_ne.2 hgrave
          funext b
          simp only [endsName, hq, Bool.and_true]
        rw [hclass]
        have hdelim : Scan.isDelimiter q = (decide (q = apostrophe) || decide (q = quote)) := by
          rw [Scan.isDelimiter, beq_false_of_ne hgrave, Bool.or_false]
          rfl
        rw [NamePattern.read?, if_neg hgrave, hdelim]
    rw [hread]
    constructor
    · intro h
      split at h
      · rename_i hdelim
        obtain ⟨rfl, hname⟩ := (untilQuote?_eq_some_iff hend).1 h
        exact ⟨q, rfl, hdelim, hname⟩
      · simp at h
    · rintro ⟨q', hs, hdelim, hname⟩
      obtain ⟨rfl, rfl⟩ := List.cons.inj hs
      rw [if_pos hdelim]
      exact (untilQuote?_eq_some_iff hend).2 ⟨rfl, hname⟩

theorem not_blank_of_isDelimiter {q : UInt8} (h : Scan.isDelimiter q = true) : isBlank q = false := by
  simp only [Scan.isDelimiter, Bool.or_eq_true, beq_iff_eq] at h
  rcases h with (rfl | rfl) | rfl <;> rfl

/-- The text of a header: the keyword, a parenthesis, the name in quotes, and the argument up to the
brace. -/
def headerText (keyword blanks : Bytes) (q : UInt8) (name argument : Bytes) : Bytes :=
  keyword ++ lparen :: (blanks ++ q :: (name ++ q :: (argument ++ [lbrace])))

/-- A header is read the same whatever follows its brace. -/
theorem exists_of_readAny? {keyword : Bytes} (hp : Literal.IsPlain keyword) {before : Option UInt8}
    {s name rest : Bytes} (h : readHeader? keyword .any before s = some (name, rest)) :
    ∃ blanks q argument, s = headerText keyword blanks q name argument ++ rest ∧
      blanks.all isBlank = true ∧ Scan.isDelimiter q = true ∧ (∀ b ∈ name, endsName q b = false) ∧
      argument.all Scan.isInert = true ∧
      ∀ rest', readHeader? keyword .any before
        (headerText keyword blanks q name argument ++ rest') = some (name, rest') := by
  obtain ⟨hbound, inner, tail, last, hkey, hname, harg, hbrace⟩ := readHeader?_eq_some_iff.1 h
  rw [Literal.strip?_eq_bytes hp] at hkey
  obtain rfl := Bytes.eq_append_of_strip? hkey
  obtain ⟨q, hinner, hq, hstop⟩ := readAny?_eq_some_iff.1 hname
  obtain ⟨argument, rfl, hinert, hlocal⟩ := local_stripArgument tail last harg
  have hlast : last = last.takeWhile isBlank ++ lbrace :: rest := by
    rw [← hbrace]
    exact List.takeWhile_append_dropWhile.symm
  have hblank : (last.takeWhile isBlank).all isBlank = true := List.all_takeWhile
  have hblanks : (inner.takeWhile isBlank).all isBlank = true := List.all_takeWhile
  have hinner : inner = inner.takeWhile isBlank ++ q :: (name ++ q :: (argument ++ last)) := by
    rw [← hinner]
    exact List.takeWhile_append_dropWhile.symm
  have hparts : ∀ rest', headerText keyword (inner.takeWhile isBlank) q name
      (argument ++ last.takeWhile isBlank) ++ rest' =
        keyword ++ lparen :: (inner.takeWhile isBlank ++ q :: (name ++ q ::
          (argument ++ (last.takeWhile isBlank ++ lbrace :: rest')))) := by
    intro rest'
    simp only [headerText, List.append_assoc, List.cons_append, List.nil_append]
  refine ⟨inner.takeWhile isBlank, q, argument ++ last.takeWhile isBlank, ?_, hblanks, hq, hstop, ?_, ?_⟩
  · rw [hparts, ← hlast, ← hinner]
  · rw [List.all_append, hinert, Bool.true_and, List.all_eq_true]
    intro b hb
    exact inert_of_blank (List.all_eq_true.1 hblank b hb)
  · intro rest'
    rw [hparts, readHeader?_eq_some_iff]
    have hhead : ∀ x y : Bytes, (keyword ++ lparen :: x).head? = (keyword ++ lparen :: y).head? := by
      intro x y
      cases keyword <;> rfl
    refine ⟨by rw [hhead _ inner]; exact hbound,
      inner.takeWhile isBlank ++ q :: (name ++ q :: (argument ++ (last.takeWhile isBlank ++ lbrace :: rest'))),
      argument ++ (last.takeWhile isBlank ++ lbrace :: rest'), last.takeWhile isBlank ++ lbrace :: rest',
      ?_, ?_, hlocal _, ?_⟩
    · rw [Literal.strip?_eq_bytes hp, Bytes.strip?_append]
    · rw [skipBlanks_append hblanks (not_blank_of_isDelimiter hq)]
      exact readAny?_eq_some_iff.2 ⟨q, rfl, hq, hstop⟩
    · exact skipBlanks_append hblank (by decide) rest'

/-- The search for all names finds a header that a search by name finds, when its quotes are the same and
its name has none of the bytes that end a name. -/
theorem readAny_of_readExactly {keyword : Bytes} (hp : Literal.IsPlain keyword) {before : Option UInt8}
    {name blanks tail n rest : Bytes} {q : UInt8} (hblanks : blanks.all isBlank = true)
    (hq : Scan.isDelimiter q = true) (hname : ∀ b ∈ name, endsName q b = false)
    (h : readHeader? keyword (.exactly name) before
      (keyword ++ lparen :: (blanks ++ q :: (name ++ q :: tail))) = some (n, rest)) :
    readHeader? keyword .any before
      (keyword ++ lparen :: (blanks ++ q :: (name ++ q :: tail))) = some (name, rest) := by
  obtain ⟨hbound, inner, tail', last, hkey, hread, harg, hbrace⟩ := readHeader?_eq_some_iff.1 h
  rw [Literal.strip?_eq_bytes hp, Bytes.strip?_append, Option.some.injEq, List.cons.injEq] at hkey
  obtain ⟨-, rfl⟩ := hkey
  rw [skipBlanks_append hblanks (not_blank_of_isDelimiter hq)] at hread
  have htail : NamePattern.read? (.exactly name) (q :: (name ++ q :: tail)) = some (name, tail) := by
    rw [NamePattern.read?, if_pos hq, Literal.strip?_append]
    exact if_pos hq
  rw [htail] at hread
  cases hread
  refine readHeader?_eq_some_iff.2 ⟨hbound, blanks ++ q :: (name ++ q :: tail), tail, last, ?_, ?_, harg,
    hbrace⟩
  · rw [Literal.strip?_eq_bytes hp, Bytes.strip?_append]
  · rw [skipBlanks_append hblanks (not_blank_of_isDelimiter hq)]
    exact readAny?_eq_some_iff.2 ⟨q, rfl, hq, hname⟩

end Spotlight.Group
