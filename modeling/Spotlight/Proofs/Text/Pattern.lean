import Spotlight.Proofs.Text.Literal
import Spotlight.Proofs.Text.Utf8

/-!
# Searching by pattern

A pattern is matched from left to right, character by character. Where there is a choice, the alternatives are tried
in an order, and the first that lets the rest of the pattern match is taken: a greedy run goes on as long as it can,
a lazy run stops as soon as it can. Of all matches the one that starts first counts.

* `Pattern.Piece`, `Pattern.match?`, `Pattern.search?` — patterns and what they match, group by group;
* `Pattern.match?_literal` — a literal is matched by its bytes;
* `Pattern.matchMost_eq` — when no choice of a greedy run is ever taken back;
* `Pattern.search?_append` — the search goes on behind a part of the text in which nothing matches.
-/

namespace Spotlight.Pattern

open Bytes

/-- A piece of a pattern. -/
inductive Piece
  /-- One character of a class. -/
  | one (p : Rune → Bool)
  /-- No character, between a word character and one that is none. -/
  | boundary
  /-- A run of characters of a class, the longest one first. -/
  | most (p : Rune → Bool)
  /-- A run of characters of a class, the shortest one first. -/
  | least (p : Rune → Bool)

/-- The characters of an ASCII class. -/
def ascii (p : UInt8 → Bool) (c : Rune) : Bool := decide (c.code < 0x80) && p c.code.toUInt8

/-- Is there a word boundary between the two characters? -/
def isBoundary (before after : Option Rune) : Bool := before.any (ascii isWord) != after.any (ascii isWord)

section

variable {β : Type} (go : Option Rune → List Rune → Option β)

/-- What `go` makes of the text behind a run, for the longest run that it can go on from. -/
def matchMost (p : Rune → Bool) : (before : Option Rune) → List Rune → Option β
  | before, [] => go before []
  | before, c :: s =>
    if p c then (matchMost p (some c) s).orElse fun _ => go before (c :: s) else go before (c :: s)

/-- What `go` makes of the text behind a run, for the shortest run that it can go on from. -/
def matchLeast (p : Rune → Bool) : (before : Option Rune) → List Rune → Option β
  | before, [] => go before []
  | before, c :: s => (go before (c :: s)).orElse fun _ => if p c then matchLeast p (some c) s else none

/-- What `go` makes of the text behind a piece. -/
def Piece.match? : Piece → (before : Option Rune) → List Rune → Option β
  | one _, _, [] => none
  | one p, _, c :: s => if p c then go (some c) s else none
  | boundary, before, s => if isBoundary before s.head? then go before s else none
  | most p, before, s => matchMost go p before s
  | least p, before, s => matchLeast go p before s

/-- What `go` makes of the text behind all pieces. -/
def match? : List Piece → (before : Option Rune) → List Rune → Option β
  | [] => go
  | x :: xs => x.match? (match? xs)

end

/-- The texts behind the groups of a pattern, one after the other, if it matches at the head of a text. -/
def matchGroups? : List (List Piece) → (before : Option Rune) → List Rune → Option (List (List Rune))
  | [] => fun _ _ => some []
  | g :: gs => match? (fun before s => (matchGroups? gs before s).map (s :: ·)) g

/-- The first match in a text: the text from the match on, and the texts behind the groups. -/
def search? (gs : List (List Piece)) : (before : Option Rune) → List Rune → Option (List (List Rune))
  | before, [] => (matchGroups? gs before []).map ([] :: ·)
  | before, c :: s =>
    match matchGroups? gs before (c :: s) with
    | some cuts => some ((c :: s) :: cuts)
    | none => search? gs (some c) s

/-- The pattern of a literal text. -/
def literal (lit : Bytes) : List Piece := (Rune.ofBytes lit).map fun c => .one fun d => d.code == c.code

/-! ### Literals -/

section

variable {β : Type} {go go' : Option Rune → List Rune → Option β}

theorem match?_append (xs ys : List Piece) : match? go (xs ++ ys) = match? (match? go ys) xs := by
  induction xs with
  | nil => rfl
  | cons x xs ih => rw [List.cons_append, match?, ih, match?]

theorem ascii_of_first {p : UInt8 → Bool} (hp : ∀ b, p b = true → b < 0x80) (b : UInt8) (s : Bytes) :
    ascii p (Rune.first b s) = p b := by
  by_cases hb : b < 0x80
  · have hlt : b.toNat < 0x80 := hb
    rw [Rune.first_of_ascii hb, ascii, decide_eq_true hlt, Bool.true_and]
    congr 1
    exact UInt8.ofNat_toNat
  · have hle := Rune.le_code (s := s) hb
    rw [ascii, decide_eq_false (by omega), Bool.false_and]
    cases h : p b with
    | false => rfl
    | true => exact absurd (hp b h) hb

/-- A character that is not U+FFFD is told by its code point. -/
theorem first_eq_of_code {a b : UInt8} {s t : Bytes} (ha : (Rune.first a s).isMalformed = false)
    (hcode : (Rune.first b t).code = (Rune.first a s).code) (hne : (Rune.first a s).code ≠ Rune.replacement) :
    (Rune.first b t).raw = (Rune.first a s).raw := by
  have hb : (Rune.first b t).isMalformed = false := by
    rw [Rune.isMalformed, hcode, beq_false_of_ne hne]
    rfl
  rw [Rune.raw_eq_encode ha, Rune.raw_eq_encode hb, hcode]

theorem code_ne_replacement {a : UInt8} {s : Bytes} (ha : (Rune.first a s).isMalformed = false)
    (hplain : Literal.IsPlain (a :: s)) : (Rune.first a s).code ≠ Rune.replacement := by
  intro hcode
  have hraw := Rune.raw_eq_encode ha
  rw [hcode] at hraw
  refine hplain ⟨[], s.drop ((Rune.first a s).raw.length - 1), ?_⟩
  have hbytes : Rune.encode Rune.replacement = Rune.replacementBytes := rfl
  rw [List.nil_append, ← hbytes, ← hraw]
  exact Rune.raw_append_drop a s

theorem strip?_append_append (x lit s : Bytes) : Bytes.strip? (x ++ lit) (x ++ s) = Bytes.strip? lit s := by
  induction x with
  | nil => rfl
  | cons b x ih => rw [List.cons_append, List.cons_append, Bytes.strip?, if_pos rfl, ih]

/-- A literal without U+FFFD is matched by its bytes. -/
theorem match?_literal {lit : Bytes} (hutf8 : lit.isUtf8 = true) (hplain : Literal.IsPlain lit)
    (before : Option Rune) (s : Bytes) : match? go (literal lit) before (Rune.ofBytes s) =
      (Bytes.strip? lit s).bind fun rest => go ((Rune.ofBytes lit).getLast?.or before) (Rune.ofBytes rest) := by
  induction lit using Rune.ofBytes_induction generalizing before s with
  | nil => rfl
  | cons a lit ih =>
    let r := Rune.first a lit
    let lit' : Bytes := lit.drop (r.raw.length - 1)
    have hchars : Rune.ofBytes (a :: lit) = r :: Rune.ofBytes lit' := Rune.ofBytes_cons a lit
    have hbytes : r.raw ++ lit' = a :: lit := Rune.raw_append_drop a lit
    have hwell : r.isMalformed = false := by
      rw [isUtf8, hchars, List.all_cons, Bool.and_eq_true, Bool.not_eq_true'] at hutf8
      exact hutf8.1
    have hutf8' : lit'.isUtf8 = true := by
      rw [isUtf8, hchars, List.all_cons, Bool.and_eq_true] at hutf8
      exact hutf8.2
    have hplain' : Literal.IsPlain lit' := fun hin =>
      hplain (hin.trans ((List.drop_suffix _ lit).trans (List.suffix_cons a lit)).isInfix)
    have hpieces : literal (a :: lit) = .one (fun d => d.code == r.code) :: literal lit' := by
      rw [literal, hchars]
      rfl
    rw [hpieces, match?]
    cases s with
    | nil => rfl
    | cons b t =>
      let r' := Rune.first b t
      have hchars' : Rune.ofBytes (b :: t) = r' :: Rune.ofBytes (t.drop (r'.raw.length - 1)) := Rune.ofBytes_cons b t
      rw [hchars', Piece.match?]
      by_cases hcode : r'.code = r.code
      · have hraw : r'.raw = r.raw := first_eq_of_code hwell hcode (code_ne_replacement hwell hplain)
        have hsame : r' = r := by
          cases hr : r
          cases hr' : r'
          rw [hr, hr'] at hcode hraw
          dsimp only at hcode hraw
          rw [hcode, hraw]
        have hbytes' : b :: t = r.raw ++ t.drop (r'.raw.length - 1) := by
          rw [← hraw]
          exact (Rune.raw_append_drop b t).symm
        rw [if_pos (beq_iff_eq.2 hcode), ih hutf8' hplain', hsame, hbytes', ← hbytes, strip?_append_append,
          hsame, hbytes, hchars]
        congr 1
        funext rest
        rw [List.getLast?_cons]
        cases (Rune.ofBytes lit').getLast? <;> rfl
      · rw [if_neg (by rw [beq_iff_eq]; exact hcode)]
        cases hstrip : Bytes.strip? (a :: lit) (b :: t) with
        | none => rfl
        | some rest =>
          obtain ⟨rfl, rfl⟩ := List.cons.inj (Bytes.eq_append_of_strip? hstrip)
          refine absurd ?_ hcode
          have htail : r.raw.tail ++ (lit' ++ rest) = lit ++ rest := by
            rw [← List.append_assoc]
            congr 1
            have hcons := hbytes
            rw [Rune.raw_first, List.cons_append, List.cons.injEq] at hcons
            rw [Rune.raw_first, List.tail_cons]
            exact hcons.2
          show (Rune.first b (lit ++ rest)).code = r.code
          rw [← htail, Rune.first_raw_append hwell]

/-- Where it does not matter which character was read last, only the bytes behind a literal count. -/
theorem match?_literal_of {k : Bytes → Option β} (hgo : ∀ before s, go before (Rune.ofBytes s) = k s)
    {lit : Bytes} (hutf8 : lit.isUtf8 = true) (hplain : Literal.IsPlain lit) (before : Option Rune) (s : Bytes) :
    match? go (literal lit) before (Rune.ofBytes s) = (Bytes.strip? lit s).bind k := by
  rw [match?_literal hutf8 hplain]
  congr 1
  funext rest
  exact hgo _ rest

/-- A character of an ASCII class is a byte. -/
theorem match?_one {k : Bytes → Option β} (hgo : ∀ before s, go before (Rune.ofBytes s) = k s)
    {p : UInt8 → Bool} (hp : ∀ b, p b = true → b < 0x80) (before : Option Rune) (s : Bytes) :
    Piece.match? go (.one (ascii p)) before (Rune.ofBytes s) =
      match s with
      | b :: t => if p b then k t else none
      | [] => none := by
  cases s with
  | nil => rfl
  | cons b t =>
    rw [Rune.ofBytes_cons, Piece.match?, ascii_of_first hp]
    dsimp only
    cases hb : p b with
    | false => rfl
    | true =>
      rw [if_pos rfl, if_pos rfl, Rune.first_of_ascii (hp b hb)]
      exact hgo _ t

/-! ### Runs -/

/-- If nothing comes of a place behind a run, and nothing more comes of a place one byte earlier, then nothing comes
of any place of the run. -/
theorem eq_none_of_dropWhile {k : Bytes → Option β} {p : UInt8 → Bool}
    (hk : ∀ b s, p b = true → k s = none → k (b :: s) = none) (s : Bytes) (h : k (s.dropWhile p) = none) :
    k s = none := by
  induction s with
  | nil => exact h
  | cons b s ih =>
    cases hb : p b with
    | false =>
      rw [List.dropWhile_cons, hb] at h
      exact h
    | true =>
      rw [List.dropWhile_cons, hb] at h
      exact hk b s hb (ih h)

/-- No choice is to be taken back of a greedy run if a shorter run helps only where the longest one does. Only the
places are looked at that have a character in front of them of which `q` holds. -/
theorem matchMost_eq {q : Option Rune → Prop} {k : Bytes → Option β} {p : UInt8 → Bool}
    (hp : ∀ b, p b = true → b < 0x80) (hq : ∀ c, ascii p c = true → q (some c))
    (hgo : ∀ before s, q before → go before (Rune.ofBytes s) = k s)
    (hk : ∀ b s, p b = true → k s = none → k (b :: s) = none) {before : Option Rune} (hbefore : q before)
    (s : Bytes) : matchMost go (ascii p) before (Rune.ofBytes s) = k (s.dropWhile p) := by
  induction s generalizing before with
  | nil => exact hgo before [] hbefore
  | cons b s ih =>
    have hclass := ascii_of_first hp b s
    rw [Rune.ofBytes_cons, matchMost, hclass]
    cases hb : p b with
    | false =>
      rw [if_neg (by simp), ← Rune.ofBytes_cons, hgo before (b :: s) hbefore, List.dropWhile_cons, hb]
      rfl
    | true =>
      have hone : s.drop ((Rune.first b s).raw.length - 1) = s := by
        rw [Rune.first_of_ascii (hp b hb)]
        rfl
      rw [if_pos rfl, ← Rune.ofBytes_cons, hone, hgo before (b :: s) hbefore, ih (hq _ (hclass.trans hb)),
        List.dropWhile_cons, hb]
      cases hrest : k (s.dropWhile p) with
      | none => exact (hk b s hb (eq_none_of_dropWhile hk s hrest)).trans hrest.symm
      | some r => exact hrest.symm

end

/-! ### Searching -/

/-- The search goes on behind a part of the text in which nothing matches. The part ends where a character ends,
for an ASCII byte follows it. -/
theorem search?_append {gs : List (List Piece)} {x y : Bytes} (hy : ∀ c ∈ y.head?, c < 0x80)
    (hnone : ∀ z' z, x = z' ++ z → z ≠ [] → ∀ before, matchGroups? gs before (Rune.ofBytes (z ++ y)) = none)
    (before : Option Rune) :
    ∃ before', search? gs before (Rune.ofBytes (x ++ y)) = search? gs before' (Rune.ofBytes y) := by
  induction x using Rune.ofBytes_induction generalizing before with
  | nil => exact ⟨before, rfl⟩
  | cons b x ih =>
    have hchars : Rune.ofBytes (b :: x ++ y) =
        Rune.first b x :: Rune.ofBytes (x.drop ((Rune.first b x).raw.length - 1) ++ y) := by
      rw [List.cons_append, Rune.ofBytes_cons, Rune.first_append b x hy,
        List.drop_append_of_le_length (Rune.length_raw_le b x)]
    have hhere := hnone [] (b :: x) rfl (List.cons_ne_nil b x) before
    obtain ⟨before', hrest⟩ := ih (fun z' z hz hne => hnone ((Rune.first b x).raw ++ z') z
      (by rw [List.append_assoc, ← hz, Rune.raw_append_drop]) hne) (some (Rune.first b x))
    refine ⟨before', ?_⟩
    rw [hchars] at hhere ⊢
    rw [search?, hhere]
    exact hrest

end Spotlight.Pattern
