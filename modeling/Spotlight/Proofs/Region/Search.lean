import Mathlib.Data.Nat.Find
import Spotlight.Proofs.Activation.Again
import Spotlight.Proofs.Group.Parts

/-!
# The search for a region by offsets

The region starts at the first marker of the file, and ends with the nearest close behind it that has the anchor
group behind it.

* `Region.OpensAt`, `Region.ClosesAt` — a marker with the white space behind it, and a close, by their offsets;
* `Region.Nearest` — the first marker, and the nearest close behind it;
* `Region.Occurs` — a marker with any close behind it;
* `Region.readClose?_eq_some_iff` — reading a close, both directions;
* `Region.find?_of_nearest` — the nearest close is found;
* `Region.exists_nearest_of_find?` — nothing else is.
-/

namespace Spotlight

open Bytes

namespace Literal

/-- The search finds the first occurrence of a literal that starts with an ASCII byte: the bytes that it skips
belong to longer characters. -/
theorem findFrom?_eq_some {a : UInt8} (ha : a < 0x80) {lit : Bytes} {skip i : Nat} {s x m rest : Bytes}
    (hskip : ∀ c ∈ s.take skip, 0x80 ≤ c) (hs : s = x ++ a :: m)
    (hm : strip? (a :: lit) (a :: m) = some rest)
    (hfirst : ∀ y z, x = y ++ z → z ≠ [] → strip? (a :: lit) (z ++ a :: m) = none) :
    findFrom? (a :: lit) skip i s = some (i + x.length, rest) := by
  fun_induction findFrom? (a :: lit) skip i s generalizing x with
  | case1 => simp at hs
  | case2 skip i b s ih =>
    cases x with
    | nil =>
      obtain rfl : b = a := (List.cons.inj hs).1
      have hle : 0x80 ≤ b := hskip b List.mem_cons_self
      exact absurd ha (UInt8.not_lt.2 hle)
    | cons c x =>
      rw [ih (fun d hd => hskip d (List.mem_cons_of_mem b hd)) (List.cons.inj hs).2
        (fun y z hyz hz => hfirst (c :: y) z (by rw [hyz, List.cons_append]) hz), List.length_cons]
      congr 2
      omega
  | case3 i b s r hr =>
    cases x with
    | nil =>
      rw [hs, List.nil_append, hm] at hr
      rw [Option.some.inj hr]
      rfl
    | cons c x =>
      rw [hs, hfirst [] (c :: x) rfl (List.cons_ne_nil c x)] at hr
      cases hr
  | case4 i b s hnone ih =>
    cases x with
    | nil =>
      rw [hs, List.nil_append, hm] at hnone
      cases hnone
    | cons c x =>
      rw [ih Rune.le_of_mem_take (List.cons.inj hs).2
        (fun y z hyz hz => hfirst (c :: y) z (by rw [hyz, List.cons_append]) hz), List.length_cons]
      congr 2
      omega

end Literal

namespace Region

/-! ### Places in a file -/

/-- The text of a close: the end of a comment and the head of the anchor group. A word boundary stands in front of
the keyword, that is, it starts with a word byte. -/
def IsClose (o : Options) (c : Bytes) : Prop :=
  o.keyword.head?.any isWord = true ∧ ∃ v w q, v.all isBlank = true ∧ w.all isBlank = true ∧
    Scan.isDelimiter q = true ∧ c = star :: slash :: (v ++ (o.keyword ++ lparen :: (w ++ q :: o.anchor)))

/-- The marker stands at offset `s`, and the white space behind it ends at offset `w`. -/
structure OpensAt (o : Options) (src : Bytes) (s w : Nat) : Prop where
  marker : o.marker <+: src.drop s
  stop_eq : w = s + o.marker.length + ((src.drop (s + o.marker.length)).takeWhile isBlank).length

/-- A close stands between the offsets `p` and `e`. -/
def ClosesAt (o : Options) (src : Bytes) (p e : Nat) : Prop :=
  ∃ c, IsClose o c ∧ c <+: src.drop p ∧ e = p + c.length

/-- There is a marker with a close behind it. -/
def Occurs (o : Options) (src : Bytes) : Prop :=
  ∃ s w p e, OpensAt o src s w ∧ w ≤ p ∧ ClosesAt o src p e

/-- The first marker stands at `s`, the white space behind it ends at `w`, and the nearest close behind that stands
between `p` and `e`. -/
structure Nearest (o : Options) (src : Bytes) (s w p e : Nat) : Prop where
  opens : OpensAt o src s w
  first : ∀ i < s, ¬ o.marker <+: src.drop i
  le : w ≤ p
  closes : ClosesAt o src p e
  nearest : ∀ i, w ≤ i → i < p → ∀ j, ¬ ClosesAt o src i j

/-- The run of white space in front of offset `p`, but not of `w`, starts at `q`. -/
structure GapAt (src : Bytes) (w q p : Nat) : Prop where
  left_le : w ≤ q
  le_right : q ≤ p
  blank : (between src q p).all isBlank = true
  maximal : ∀ b ∈ (between src w q).getLast?, isBlank b = false

section

variable {o : Options}

/-! ### Closes -/

theorem not_isBlank_of_isWord {b : UInt8} (h : isWord b = true) : isBlank b = false := by
  cases hblank : isBlank b with
  | false => rfl
  | true =>
    rw [Scan.not_isWord_of_isSpace (Group.isSpace_of_isBlank hblank)] at h
    cases h

/-- A close is read where one stands, and nothing else is read as a close. -/
theorem readClose?_eq_some_iff (hkeyword : Literal.IsPlain o.keyword) (hanchor : Literal.IsPlain o.anchor)
    {s rest : Bytes} : readClose? o s = some rest ↔ ∃ c, IsClose o c ∧ s = c ++ rest := by
  have hopen : ∀ t, Bytes.strip? (Bytes.ofString "*/") (star :: slash :: t) = some t := fun t =>
    Bytes.strip?_append [star, slash] t
  constructor
  · intro h
    unfold readClose? at h
    obtain ⟨s₁, h₁, h⟩ := Option.bind_eq_some_iff.1 h
    obtain ⟨⟨⟩, hword, h⟩ := Option.bind_eq_some_iff.1 h
    obtain ⟨s₂, h₂, h⟩ := Option.bind_eq_some_iff.1 h
    obtain ⟨s₃, h₃, h⟩ := Option.bind_eq_some_iff.1 h
    have hhead : o.keyword.head?.any isWord = true := by
      have hguard : (if o.keyword.head?.any isWord = true then some () else none) = some () := hword
      simpa using hguard
    obtain ⟨v, hv, hvblank⟩ := exists_skipBlanks s₁
    obtain ⟨w, hw, hwblank⟩ := exists_skipBlanks s₃
    rw [Literal.strip?_eq_bytes hkeyword] at h₂
    have hs : s = star :: slash :: s₁ := Bytes.eq_append_of_strip? h₁
    have hs₁ : Group.skipBlanks s₁ = o.keyword ++ s₂ := Bytes.eq_append_of_strip? h₂
    have hs₂ : s₂ = lparen :: s₃ := Bytes.eq_append_of_strip? h₃
    cases hblank : Group.skipBlanks s₃ with
    | nil => simp [hblank] at h
    | cons q s₄ =>
      rw [hblank] at h hw
      dsimp only at h
      split at h
      · rename_i hq
        rw [Literal.strip?_eq_bytes hanchor] at h
        refine ⟨_, ⟨hhead, v, w, q, hvblank, hwblank, hq, rfl⟩, ?_⟩
        rw [hs, hv, hs₁, hs₂, hw, Bytes.eq_append_of_strip? h]
        simp only [List.append_assoc, List.cons_append]
      · simp at h
  · rintro ⟨c, ⟨hhead, v, w, q, hv, hw, hq, rfl⟩, rfl⟩
    obtain ⟨b, keyword, hb⟩ : ∃ b keyword, o.keyword = b :: keyword := by
      cases hkw : o.keyword with
      | nil =>
        rw [hkw] at hhead
        cases hhead
      | cons b keyword => exact ⟨b, keyword, rfl⟩
    have hword : isWord b = true := by
      rw [hb] at hhead
      exact hhead
    have hfirst : Group.skipBlanks (v ++ (o.keyword ++ lparen :: (w ++ q :: (o.anchor ++ rest)))) =
        o.keyword ++ lparen :: (w ++ q :: (o.anchor ++ rest)) := by
      rw [hb, List.cons_append]
      exact Group.skipBlanks_append hv (not_isBlank_of_isWord hword) _
    have hparen : ∀ t, Bytes.strip? [lparen] (lparen :: t) = some t := fun t => Bytes.strip?_append [lparen] t
    simp only [List.append_assoc, List.cons_append]
    unfold readClose?
    rw [hopen]
    show (if o.keyword.head?.any isWord = true then some () else none).bind _ = _
    rw [if_pos hhead]
    show (Literal.strip? o.keyword (Group.skipBlanks _)).bind _ = _
    rw [hfirst, Literal.strip?_append, Option.bind_some]
    show (Bytes.strip? [lparen] (lparen :: _)).bind _ = _
    rw [hparen, Option.bind_some, Group.skipBlanks_append hw (Group.not_blank_of_isDelimiter hq)]
    dsimp only
    rw [if_pos hq, Literal.strip?_append]

/-- The search goes past a part of the text in which no close starts. -/
theorem findClose?_skip {x s : Bytes} (hnone : ∀ y z, x = y ++ z → z ≠ [] → readClose? o (z ++ s) = none) :
    findClose? o (x ++ s) = (findClose? o s).map fun found => (x ++ found.1, found.2) := by
  induction x with
  | nil =>
    rw [List.nil_append]
    cases findClose? o s <;> rfl
  | cons b x ih =>
    have hhere : readClose? o (b :: (x ++ s)) = none := hnone [] (b :: x) rfl (List.cons_ne_nil b x)
    rw [List.cons_append, findClose?, hhere, ih fun y z hxy hz => hnone (b :: y) z (by rw [hxy, List.cons_append]) hz]
    cases findClose? o s <;> rfl

/-- The first close of a text is found. -/
theorem findClose?_append {front close rest : Bytes} (hclose : readClose? o close = some rest)
    (hfirst : ∀ x y, front = x ++ y → y ≠ [] → readClose? o (y ++ close) = none) :
    findClose? o (front ++ close) = some (front, rest) := by
  have hhere : findClose? o close = some ([], rest) := by
    cases close with
    | nil => cases hclose
    | cons b t => rw [findClose?, hclose]
  rw [findClose?_skip hfirst, hhere, Option.map_some, List.append_nil]

/-- No close stands in front of the one that is found. -/
theorem readClose?_of_findClose? {s front rest : Bytes} (h : findClose? o s = some (front, rest)) {x y close : Bytes}
    (hs : s = x ++ (y ++ close)) (hfront : front = x ++ y) (hy : y ≠ []) : readClose? o (y ++ close) = none := by
  fun_induction findClose? o s generalizing front x with
  | case1 => simp at h
  | case2 b s r hr =>
    cases h
    rw [eq_comm, List.append_eq_nil_iff] at hfront
    exact absurd hfront.2 hy
  | case3 b s hnone ih =>
    obtain ⟨⟨front', rest'⟩, hfind, heq⟩ := Option.map_eq_some_iff.1 h
    cases heq
    cases x with
    | nil =>
      rw [List.nil_append] at hs
      rw [← hs]
      exact hnone
    | cons c x =>
      rw [List.cons_append, List.cons.injEq] at hs hfront
      exact ih hfind hs.2 hfront.2

theorem findClose?_eq_none_iff {s : Bytes} :
    findClose? o s = none ↔ ∀ x close, s = x ++ close → readClose? o close = none := by
  constructor
  · intro h
    fun_induction findClose? o s with
    | case1 =>
      intro x close hs
      obtain ⟨-, rfl⟩ := List.append_eq_nil_iff.1 hs.symm
      rfl
    | case2 b s r hr => simp at h
    | case3 b s hnone ih =>
      intro x close hs
      cases x with
      | nil =>
        rw [List.nil_append] at hs
        rw [← hs]
        exact hnone
      | cons c x => exact ih (Option.map_eq_none_iff.1 h) x close (List.cons.inj hs).2
  · intro h
    cases hfind : findClose? o s with
    | none => rfl
    | some found =>
      obtain ⟨front, rest⟩ := found
      obtain ⟨close, hs, hclose⟩ := exists_of_findClose? hfind
      rw [h _ _ hs] at hclose
      cases hclose

/-! ### Regions -/

/-- What stands behind a close. -/
theorem ClosesAt.readClose?_eq (hkeyword : Literal.IsPlain o.keyword) (hanchor : Literal.IsPlain o.anchor)
    {src : Bytes} {p e : Nat} (h : ClosesAt o src p e) : readClose? o (src.drop p) = some (src.drop e) := by
  obtain ⟨c, hc, ⟨rest, hrest⟩, rfl⟩ := h
  rw [drop_add_of_drop hrest.symm, ← hrest]
  exact (readClose?_eq_some_iff hkeyword hanchor).2 ⟨c, hc, rfl⟩

theorem exists_closesAt (hkeyword : Literal.IsPlain o.keyword) (hanchor : Literal.IsPlain o.anchor)
    {src rest : Bytes} {p : Nat} (h : readClose? o (src.drop p) = some rest) :
    ∃ e, ClosesAt o src p e ∧ rest = src.drop e := by
  obtain ⟨c, hc, hs⟩ := (readClose?_eq_some_iff hkeyword hanchor).1 h
  exact ⟨p + c.length, ⟨c, hc, ⟨rest, hs.symm⟩, rfl⟩, (drop_add_of_drop hs).symm⟩

/-- The marker with the white space behind it. -/
theorem OpensAt.drop_eq {src : Bytes} {s w : Nat} (h : OpensAt o src s w) :
    ∃ blanks, src.drop s = o.marker ++ (blanks ++ src.drop w) ∧ w = s + o.marker.length + blanks.length ∧
      Group.skipBlanks (blanks ++ src.drop w) = src.drop w := by
  obtain ⟨after, hafter⟩ := h.marker
  have hdrop : src.drop (s + o.marker.length) = after := drop_add_of_drop hafter.symm
  have hstop := h.stop_eq
  rw [hdrop] at hstop
  have hrest : src.drop w = Group.skipBlanks after := by
    rw [hstop, ← List.drop_drop, hdrop, Bytes.drop_length_takeWhile]
    rfl
  have hsplit : after.takeWhile isBlank ++ src.drop w = after := by
    rw [hrest]
    exact List.takeWhile_append_dropWhile
  refine ⟨after.takeWhile isBlank, ?_, hstop, ?_⟩
  · rw [hsplit, hafter]
  · rw [hsplit, hrest]

/-- The white space behind a later marker does not end earlier. -/
theorem OpensAt.le_of_le {src : Bytes} {s w s' w' : Nat} (h : OpensAt o src s w) (h' : OpensAt o src s' w')
    (hle : s ≤ s') : w ≤ w' := by
  have hrun := Bytes.takeWhile_drop_le isBlank (src.drop (s + o.marker.length)) (s' - s)
  have hdrop : (src.drop (s + o.marker.length)).drop (s' - s) = src.drop (s' + o.marker.length) := by
    rw [List.drop_drop]
    congr 1
    omega
  rw [hdrop] at hrun
  rw [h.stop_eq, h'.stop_eq]
  omega

theorem ClosesAt.bounds {src : Bytes} {p e : Nat} (h : ClosesAt o src p e) : p < e ∧ e ≤ src.length := by
  obtain ⟨c, ⟨-, v, w, q, -, -, -, rfl⟩, hprefix, rfl⟩ := h
  have hlen := hprefix.length_le
  rw [List.length_drop] at hlen
  simp only [List.length_cons] at hlen ⊢
  omega

/-- The nearest close is the first one of the text behind the marker. -/
theorem Nearest.findClose?_eq (hkeyword : Literal.IsPlain o.keyword) (hanchor : Literal.IsPlain o.anchor)
    {src : Bytes} {s w p e : Nat} (h : Nearest o src s w p e) :
    findClose? o (src.drop w) = some (between src w p, src.drop e) := by
  obtain ⟨hpe, he⟩ := h.closes.bounds
  have hwp : src.drop w = between src w p ++ src.drop p := drop_eq_between_append src h.le
  rw [hwp]
  refine findClose?_append (h.closes.readClose?_eq hkeyword hanchor) fun x y hxy hy => ?_
  have hlen := congrArg List.length hxy
  have hpos := List.length_pos_iff.2 hy
  rw [length_between h.le (by omega), List.length_append] at hlen
  have hplace : src.drop (w + x.length) = y ++ src.drop p := by
    apply drop_add_of_drop
    rw [hwp, hxy, List.append_assoc]
  cases hread : readClose? o (y ++ src.drop p) with
  | none => rfl
  | some rest =>
    rw [← hplace] at hread
    obtain ⟨j, hj, -⟩ := exists_closesAt hkeyword hanchor hread
    exact absurd hj (h.nearest _ (by omega) (by omega) j)

/-- The run of white space in front of an offset, by its length. -/
theorem GapAt.length_trailing {src : Bytes} {w q p : Nat} (h : GapAt src w q p) (hp : p ≤ src.length) :
    ((between src w p).reverse.takeWhile isBlank).length = p - q := by
  rw [← between_append_between src h.left_le h.le_right, Bytes.takeWhile_reverse_append h.blank h.maximal,
    length_between h.le_right hp]

theorem exists_gapAt {src : Bytes} {w p : Nat} (hle : w ≤ p) (hp : p ≤ src.length) : ∃ q, GapAt src w q p := by
  let front := between src w p
  let size := (front.reverse.takeWhile isBlank).length
  have hsize : size ≤ front.length := by
    rw [← List.length_reverse]
    exact (List.takeWhile_prefix isBlank).length_le
  have hlen : front.length = p - w := length_between hle hp
  have hbody : between src w (p - size) = front.take (front.length - size) := by
    show (src.drop w).take (p - size - w) = ((src.drop w).take (p - w)).take (front.length - size)
    rw [List.take_take]
    congr 1
    omega
  have hgap : between src (p - size) p = front.drop (front.length - size) := by
    show (src.drop (p - size)).take (p - (p - size)) = ((src.drop w).take (p - w)).drop (front.length - size)
    rw [List.drop_take, List.drop_drop]
    congr 1
    · omega
    · congr 1
      omega
  refine ⟨p - size, by omega, Nat.sub_le p size, ?_, fun b hb => ?_⟩
  · rw [hgap]
    exact Bytes.all_drop_trailing isBlank front
  · rw [hbody] at hb
    exact Bytes.not_of_getLast?_trailing isBlank front b hb

theorem Nearest.exists_gapAt {src : Bytes} {s w p e : Nat} (h : Nearest o src s w p e) : ∃ q, GapAt src w q p :=
  Region.exists_gapAt h.le (Nat.le_trans (Nat.le_of_lt h.closes.bounds.1) h.closes.bounds.2)

/-- The part of a file from the first marker to the nearest close. -/
theorem Nearest.stop_eq {src : Bytes} {s w q p e : Nat} (h : Nearest o src s w p e) (hgap : GapAt src w q p) :
    (⟨between src s w, between src w q, between src q e, s⟩ : Region).stop = e := by
  obtain ⟨hpe, he⟩ := h.closes.bounds
  have hw := h.opens.stop_eq
  have hleft := hgap.left_le
  have hright := hgap.le_right
  rw [stop, text, between_append_between src (by omega) hleft, between_append_between src (by omega) (by omega),
    length_between (by omega) he]
  show s + (e - s) = e
  omega

section

variable (hmarker : Bytes.ofString "/*" <+: o.marker) (hplain : Literal.IsPlain o.marker)

include hmarker hplain

/-- The first marker is found. -/
theorem find?_of_first {src after : Bytes} {s : Nat} (hs : src.drop s = o.marker ++ after)
    (hfirst : ∀ i < s, ¬ o.marker <+: src.drop i) : Literal.find? o.marker src = some (s, after) := by
  obtain ⟨note, hnote⟩ : ∃ note, o.marker = slash :: star :: note := by
    obtain ⟨note, hnote⟩ := hmarker
    exact ⟨note, hnote.symm⟩
  have hlen : s ≤ src.length := by
    rcases Nat.lt_or_ge src.length s with hlt | hle
    · rw [List.drop_of_length_le (Nat.le_of_lt hlt), hnote] at hs
      simp at hs
    · exact hle
  have htake : (src.take s).length = s := by
    rw [List.length_take]
    omega
  have hsrc : src = src.take s ++ slash :: (star :: note ++ after) := by
    rw [← List.cons_append, ← hnote, ← hs, List.take_append_drop]
  have hnone : ∀ y z, src.take s = y ++ z → z ≠ [] →
      Literal.strip? (slash :: star :: note) (z ++ slash :: (star :: note ++ after)) = none := by
    intro y z hyz hz
    have hdrop : src.drop y.length = z ++ src.drop s := by
      conv => lhs; rw [← List.take_append_drop s src, hyz, List.append_assoc, List.drop_left]
    have hlt : y.length < s := by
      have hsum := congrArg List.length hyz
      have hpos := List.length_pos_iff.2 hz
      rw [htake, List.length_append] at hsum
      omega
    rw [← hnote, Literal.strip?_eq_bytes hplain]
    have hrest : z ++ slash :: (star :: note ++ after) = src.drop y.length := by
      rw [hdrop, hs, hnote]
      rfl
    cases hstrip : Bytes.strip? o.marker (z ++ slash :: (star :: note ++ after)) with
    | none => rfl
    | some rest =>
      exact absurd ⟨rest, by rw [← Bytes.eq_append_of_strip? hstrip, hrest]⟩ (hfirst y.length hlt)
  have hfind : Literal.findFrom? (slash :: star :: note) 0 0 src = some (0 + (src.take s).length, after) :=
    Literal.findFrom?_eq_some (by decide) (by simp) hsrc (Literal.strip?_append (slash :: star :: note) after) hnone
  rw [hnote, Literal.find?, hfind, htake, Nat.zero_add]

/-- What is found is the first marker. -/
theorem first_of_find? {src after : Bytes} {s : Nat} (h : Literal.find? o.marker src = some (s, after)) :
    src.drop s = o.marker ++ after ∧ ∀ i < s, ¬ o.marker <+: src.drop i := by
  obtain ⟨front, m, rfl, rfl, hm⟩ := Literal.exists_of_find? h
  rw [Literal.strip?_eq_bytes hplain] at hm
  refine ⟨by rw [List.drop_left]; exact Bytes.eq_append_of_strip? hm, fun i hi hprefix => ?_⟩
  obtain ⟨note, hnote⟩ : ∃ note, o.marker = slash :: star :: note := by
    obtain ⟨note, hnote⟩ := hmarker
    exact ⟨note, hnote.symm⟩
  obtain ⟨rest, hrest⟩ := hprefix
  have hsrc : front ++ m = (front ++ m).take i ++ slash :: (star :: note ++ rest) := by
    rw [← List.cons_append, ← hnote, hrest, List.take_append_drop]
  rw [hnote, Literal.find?] at h
  have hle := Literal.le_of_findFrom? (by decide) h (by simp) hsrc (by
    rw [← List.cons_append, Literal.strip?_append]
    rfl)
  rw [List.length_take] at hle
  omega

end

section

variable (hmarker : Bytes.ofString "/*" <+: o.marker) (hplain : Literal.IsPlain o.marker)
  (hkeyword : Literal.IsPlain o.keyword) (hanchor : Literal.IsPlain o.anchor)

include hmarker hplain hkeyword hanchor

/-- The nearest close behind the first marker is found. -/
theorem find?_of_nearest {src : Bytes} {s w q p e : Nat} (h : Nearest o src s w p e) (hgap : GapAt src w q p)
    (i : Nat) : find? o i src =
      some (⟨between src s w, between src w q, between src q e, i + s⟩, src.drop e) := by
  obtain ⟨blanks, hdrop, hw, hskip⟩ := h.opens.drop_eq
  obtain ⟨hpe, he⟩ := h.closes.bounds
  have hleft := hgap.left_le
  have hright := hgap.le_right
  have hsize : ((between src w p).take ((between src w p).length -
      ((between src w p).reverse.takeWhile isBlank).length)) = between src w q := by
    rw [hgap.length_trailing (by omega), between, List.take_take, List.length_take, List.length_drop, between]
    congr 1
    omega
  have hopening : (src.drop s).take (src.length - s - (src.drop w).length) = between src s w := by
    rw [between, List.length_drop]
    congr 1
    omega
  have hclosing : ((src.drop w).drop (between src w q).length).take
      (((src.drop w).drop (between src w q).length).length - (src.drop e).length) = between src q e := by
    rw [length_between hleft (by omega), List.drop_drop, between, List.length_drop, List.length_drop,
      Nat.add_sub_cancel' hleft]
    congr 1
    omega
  unfold find?
  rw [find?_of_first hmarker hplain hdrop h.first]
  dsimp only [bind, Option.bind]
  rw [hskip, h.findClose?_eq hkeyword hanchor]
  dsimp only
  rw [hsize, hopening, hclosing]
  rfl

/-- What is found is the nearest close behind the first marker. -/
theorem exists_nearest_of_find? {src : Bytes} {i : Nat} (h : find? o i src ≠ none) :
    ∃ s w p e, Nearest o src s w p e := by
  cases hmark : Literal.find? o.marker src with
  | none => simp [find?, hmark] at h
  | some found =>
    obtain ⟨s, after⟩ := found
    obtain ⟨hs, hfirst⟩ := first_of_find? hmarker hplain hmark
    have hopens : OpensAt o src s (s + o.marker.length + ((src.drop (s + o.marker.length)).takeWhile isBlank).length) :=
      ⟨⟨after, hs.symm⟩, rfl⟩
    obtain ⟨blanks, hdrop, -, hskip⟩ := hopens.drop_eq
    generalize s + o.marker.length + ((src.drop (s + o.marker.length)).takeWhile isBlank).length = w
      at hopens hdrop hskip
    have hafter : Group.skipBlanks after = src.drop w := by
      rw [hs, List.append_cancel_left_eq] at hdrop
      rw [hdrop, hskip]
    cases hclose : findClose? o (src.drop w) with
    | none => simp [find?, hmark, hafter, hclose] at h
    | some found =>
      obtain ⟨front, rest⟩ := found
      obtain ⟨close, hsplit, hread⟩ := exists_of_findClose? hclose
      have hplace : src.drop (w + front.length) = close := drop_add_of_drop hsplit
      rw [← hplace] at hread
      obtain ⟨e, hcloses, -⟩ := exists_closesAt hkeyword hanchor hread
      refine ⟨s, w, w + front.length, e, hopens, hfirst, Nat.le_add_right w _, hcloses, fun k hwk hkp j hk => ?_⟩
      have hsome := hk.readClose?_eq hkeyword hanchor
      have hcut : src.drop k = front.drop (k - w) ++ close := by
        have hk' : src.drop k = (src.drop w).drop (k - w) := by
          rw [List.drop_drop]
          congr 1
          omega
        rw [hk', hsplit, List.drop_append_of_le_length (by omega)]
      have hback : src.drop w = front.take (k - w) ++ (front.drop (k - w) ++ close) := by
        rw [← List.append_assoc, List.take_append_drop, hsplit]
      rw [hcut, readClose?_of_findClose? hclose hback (List.take_append_drop _ _).symm] at hsome
      · cases hsome
      · intro hnil
        have hlen := congrArg List.length hnil
        rw [List.length_drop, List.length_nil] at hlen
        omega

/-- A region is found if and only if there is a marker with a close behind it: if a close stands behind any
marker, it stands behind the first one. -/
theorem find?_ne_none_iff {src : Bytes} {i : Nat} : find? o i src ≠ none ↔ Occurs o src := by
  constructor
  · intro h
    obtain ⟨s, w, p, e, hnear⟩ := exists_nearest_of_find? hmarker hplain hkeyword hanchor h
    exact ⟨s, w, p, e, hnear.opens, hnear.le, hnear.closes⟩
  · rintro ⟨s, w, p, e, hopens, hle, hcloses⟩ hnone
    have hsome : ∃ i, o.marker <+: src.drop i := ⟨s, hopens.marker⟩
    obtain ⟨s₀, hs₀, hmark, hfirst⟩ : ∃ s₀, s₀ ≤ s ∧ o.marker <+: src.drop s₀ ∧
        ∀ i < s₀, ¬ o.marker <+: src.drop i := by
      classical
      exact ⟨Nat.find hsome, Nat.find_min' hsome hopens.marker, Nat.find_spec hsome,
        fun i hi => Nat.find_min hsome hi⟩
    have hopens₀ : OpensAt o src s₀ _ := ⟨hmark, rfl⟩
    have hle₀ := hopens₀.le_of_le hopens hs₀
    obtain ⟨blanks, hdrop, -, hskip⟩ := hopens₀.drop_eq
    generalize s₀ + o.marker.length + ((src.drop (s₀ + o.marker.length)).takeWhile isBlank).length = w₀
      at hopens₀ hle₀ hdrop hskip
    have hplace : src.drop w₀ = between src w₀ p ++ src.drop p := drop_eq_between_append src (Nat.le_trans hle₀ hle)
    have hread := hcloses.readClose?_eq hkeyword hanchor
    cases hclose : findClose? o (src.drop w₀) with
    | none =>
      rw [findClose?_eq_none_iff.1 hclose _ _ hplace] at hread
      cases hread
    | some found =>
      rw [find?, find?_of_first hmarker hplain hdrop hfirst] at hnone
      simp [hskip, hclose] at hnone

theorem find?_of_not_occurs {src : Bytes} (h : ¬ Occurs o src) (i : Nat) : find? o i src = none := by
  cases hfound : find? o i src with
  | none => rfl
  | some found =>
    have hsome : find? o i src ≠ none := by
      rw [hfound]
      simp
    exact absurd ((find?_ne_none_iff hmarker hplain hkeyword hanchor).1 hsome) h

/-- Where there is a marker with a close behind it, there is a nearest close behind the first marker. -/
theorem Occurs.exists_nearest {src : Bytes} (h : Occurs o src) :
    ∃ s w q p e, Nearest o src s w p e ∧ GapAt src w q p := by
  obtain ⟨s, w, p, e, hnear⟩ := exists_nearest_of_find? hmarker hplain hkeyword hanchor
    ((find?_ne_none_iff hmarker hplain hkeyword hanchor (i := 0)).2 h)
  obtain ⟨q, hgap⟩ := hnear.exists_gapAt
  exact ⟨s, w, q, p, e, hnear, hgap⟩

end

end

end Region

end Spotlight
