import Spotlight.Proofs.Region.Search
import Spotlight.Proofs.Text.Pattern

/-!
# Searching for a region by pattern

The search for a region is one pattern in three groups. Each group has a run in it that could be taken back, and
other markers could be tried; none of this changes what is found.

* `Region.groups` — the pattern of a disabled region;
* `Region.locateByPattern` — the region as the pattern finds it;
* `Region.matchGroups?_groups` — the pattern matches a marker, as far as the white space behind it goes, and the
  first close behind that;
* `Region.locate_eq_search` — the region goes from the first marker to the nearest close behind it, and so the pattern
  finds it.
-/

namespace Spotlight.Region

open Bytes Pattern

/-- White space in a pattern. -/
def blanks : Piece := .most (ascii isBlank)

/-- The pattern of a close: the end of a comment, white space, the keyword behind a word boundary, a parenthesis,
white space, a quote and the name of the anchor group. -/
def closePattern (o : Options) : List Piece :=
  literal [star, slash] ++ blanks :: .boundary :: (literal o.keyword ++
    (literal [lparen] ++ blanks :: .one (ascii Scan.isDelimiter) :: literal o.anchor))

/-- The pattern of a disabled region in three groups: the marker with white space, anything, and white space with a
close. -/
def groups (o : Options) : List (List Piece) :=
  [literal o.marker ++ [blanks], [.least fun _ => true], blanks :: closePattern o]

/-- The offset of a part at the end of a text. -/
def offsetOf (src : Bytes) (s : List Rune) : Nat := src.length - (s.flatMap Rune.raw).length

/-- The only disabled region of a file, as the pattern finds it. A second match is looked for behind the first
one. -/
def locateByPattern (src : Bytes) (o : Options) : Except Fault Region :=
  let text := Rune.ofBytes src
  match search? (groups o) none text with
  | some [start, inner, close, rest] =>
    match search? (groups o) (text.take (text.length - rest.length)).getLast? rest with
    | none =>
      .ok ⟨between src (offsetOf src start) (offsetOf src inner), between src (offsetOf src inner) (offsetOf src close),
        between src (offsetOf src close) (offsetOf src rest), offsetOf src start⟩
    | some _ => .error (.ambiguousRegion o.marker)
  | _ => .error (.regionNotFound o.marker o.keyword o.anchor)

/-! ### The close -/

theorem ascii_of_isBlank (b : UInt8) (h : isBlank b = true) : b < 0x80 := by
  simp only [isBlank, Bool.or_eq_true, beq_iff_eq] at h
  rcases h with (((rfl | rfl) | rfl) | rfl) | rfl <;> decide

theorem ascii_of_isDelimiter (b : UInt8) (h : Scan.isDelimiter b = true) : b < 0x80 := by
  simp only [Scan.isDelimiter, Bool.or_eq_true, beq_iff_eq] at h
  rcases h with (rfl | rfl) | rfl <;> decide

/-- White space and characters that are no word characters are two classes. -/
theorem not_word_of_blank (c : Rune) (h : ascii isBlank c = true) : (some c).any (ascii isWord) = false := by
  rw [ascii, Bool.and_eq_true] at h
  have hword : isWord c.code.toUInt8 = false := by
    cases hw : isWord c.code.toUInt8 with
    | false => rfl
    | true =>
      rw [not_isBlank_of_isWord hw] at h
      exact absurd h.2 (by simp)
  show ascii isWord c = false
  rw [ascii, hword, Bool.and_false]

section

variable {o : Options} {β : Type} {go : Option Rune → List Rune → Option β} {k : Bytes → Option β}

/-- What stands behind the keyword of a close. -/
theorem match?_call (hanchor : o.anchor.isUtf8 = true) (hplain : Literal.IsPlain o.anchor)
    (hgo : ∀ before s, go before (Rune.ofBytes s) = k s) (before : Option Rune) (s : Bytes) :
    match? go (literal [lparen] ++ blanks :: .one (ascii Scan.isDelimiter) :: literal o.anchor) before
        (Rune.ofBytes s) =
      (Bytes.strip? [lparen] s).bind fun s => match Group.skipBlanks s with
        | q :: s => if Scan.isDelimiter q then (Literal.strip? o.anchor s).bind k else none
        | [] => none := by
  have hname : ∀ before s, match? go (literal o.anchor) before (Rune.ofBytes s) =
      (Literal.strip? o.anchor s).bind k := by
    intro before s
    rw [match?_literal_of hgo hanchor hplain, Literal.strip?_eq_bytes hplain]
  have hquote := match?_one hname ascii_of_isDelimiter
  rw [match?_append]
  refine match?_literal_of (fun before s => ?_) (by decide) (by decide) before s
  -- no shorter run of white space can have a quote behind it
  refine matchMost_eq (q := fun _ => True) ascii_of_isBlank (fun _ _ => trivial) (fun before s _ => hquote before s)
    (fun b s hb _ => ?_) trivial s
  dsimp only
  cases hq : Scan.isDelimiter b with
  | false => rfl
  | true =>
    rw [Group.not_blank_of_isDelimiter hq] at hb
    cases hb

/-- A keyword behind white space or the end of a comment has a word boundary in front of it if it starts with a word
byte. -/
theorem match?_boundary {keyword : Bytes} (hne : keyword ≠ []) (hutf8 : keyword.isUtf8 = true)
    (hplain : Literal.IsPlain keyword) (hgo : ∀ before s, go before (Rune.ofBytes s) = k s) (before : Option Rune)
    (s : Bytes) (hbefore : before.any (ascii isWord) = false) :
    match? go (.boundary :: literal keyword) before (Rune.ofBytes s) =
      if keyword.head?.any isWord = true then (Bytes.strip? keyword s).bind k else none := by
  obtain ⟨a, lit, rfl⟩ := List.exists_cons_of_ne_nil hne
  rw [match?, Piece.match?, isBoundary, hbefore, match?_literal_of hgo hutf8 hplain]
  cases s with
  | nil =>
    rw [Bytes.strip?, Option.bind_none, ite_self, ite_self]
  | cons b s =>
    have hhead : (Rune.ofBytes (b :: s)).head?.any (ascii isWord) = isWord b := by
      rw [Rune.ofBytes_cons]
      exact ascii_of_first (fun c hc => (Bytes.ascii_of_isWord hc).1) b s
    rw [hhead, Bytes.strip?]
    by_cases hab : a = b
    · subst hab
      cases hword : isWord a <;> simp [hword]
    · rw [if_neg hab, Option.bind_none, ite_self, ite_self]

/-- The pattern of a close matches what is read as a close. -/
theorem match?_closePattern (hkeyword : o.keyword ≠ []) (hutf8 : o.keyword.isUtf8 = true ∧ o.anchor.isUtf8 = true)
    (hplain : Literal.IsPlain o.keyword ∧ Literal.IsPlain o.anchor)
    (hgo : ∀ before s, go before (Rune.ofBytes s) = k s) (before : Option Rune) (s : Bytes) :
    match? go (closePattern o) before (Rune.ofBytes s) = (readClose? o s).bind k := by
  let call : Bytes → Option β := fun s => (Bytes.strip? [lparen] s).bind fun s => match Group.skipBlanks s with
    | q :: s => if Scan.isDelimiter q then (Literal.strip? o.anchor s).bind k else none
    | [] => none
  let behind : Bytes → Option β := fun s =>
    if o.keyword.head?.any isWord = true then (Bytes.strip? o.keyword s).bind call else none
  have hcall : ∀ before s, match? go (literal [lparen] ++ blanks :: .one (ascii Scan.isDelimiter) ::
      literal o.anchor) before (Rune.ofBytes s) = call s := match?_call hutf8.2 hplain.2 hgo
  have hword : ∀ before s, before.any (ascii isWord) = false → match? go (.boundary :: (literal o.keyword ++
      (literal [lparen] ++ blanks :: .one (ascii Scan.isDelimiter) :: literal o.anchor))) before
        (Rune.ofBytes s) = behind s := by
    intro before s hbefore
    rw [← List.cons_append, match?_append]
    exact match?_boundary hkeyword hutf8.1 hplain.1 hcall before s hbefore
  have hlast : (Rune.ofBytes [star, slash]).getLast? = some ⟨0x2f, [slash]⟩ := rfl
  have hskip : ∀ b s, isBlank b = true → behind s = none → behind (b :: s) = none := by
    -- a shorter run of white space has white space behind it, which is not how the keyword starts
    intro b s hb _
    obtain ⟨a, lit, ha⟩ := List.exists_cons_of_ne_nil hkeyword
    show (if o.keyword.head?.any isWord = true then (Bytes.strip? o.keyword (b :: s)).bind call else none) = none
    rw [ha, Bytes.strip?]
    by_cases hab : a = b
    · subst hab
      have hnot : isWord a = false := by
        cases hw : isWord a with
        | false => rfl
        | true =>
          rw [not_isBlank_of_isWord hw] at hb
          cases hb
      simp [hnot]
    · rw [if_neg hab, Option.bind_none, ite_self]
  have hrun : ∀ s, matchMost (match? go (.boundary :: (literal o.keyword ++
      (literal [lparen] ++ blanks :: .one (ascii Scan.isDelimiter) :: literal o.anchor)))) (ascii isBlank)
        (some ⟨0x2f, [slash]⟩) (Rune.ofBytes s) = behind (s.dropWhile isBlank) :=
    matchMost_eq ascii_of_isBlank not_word_of_blank hword hskip (by decide)
  rw [closePattern, match?_append, match?_literal (by decide) (by decide), hlast, Option.some_or]
  unfold readClose?
  show _ = ((Bytes.strip? [star, slash] s).bind _).bind k
  cases Bytes.strip? [star, slash] s with
  | none => rfl
  | some s =>
    refine (hrun s).trans ?_
    show (if o.keyword.head?.any isWord = true then (Bytes.strip? o.keyword (Group.skipBlanks s)).bind call else none) =
      ((if o.keyword.head?.any isWord = true then some () else none).bind fun _ => _).bind k
    cases o.keyword.head?.any isWord with
    | false => rfl
    | true =>
      show (Bytes.strip? o.keyword (Group.skipBlanks s)).bind call =
        ((Literal.strip? o.keyword (Group.skipBlanks s)).bind _).bind k
      rw [Literal.strip?_eq_bytes hplain.1]
      cases Bytes.strip? o.keyword (Group.skipBlanks s) with
      | none => rfl
      | some s =>
        show (Bytes.strip? [lparen] s).bind _ = ((Bytes.strip? [lparen] s).bind _).bind k
        cases Bytes.strip? [lparen] s with
        | none => rfl
        | some s =>
          show (match Group.skipBlanks s with
            | q :: s => if Scan.isDelimiter q then (Literal.strip? o.anchor s).bind k else none
            | [] => none) = (match Group.skipBlanks s with
            | q :: s => if Scan.isDelimiter q then Literal.strip? o.anchor s else none
            | [] => none).bind k
          cases Group.skipBlanks s with
          | nil => rfl
          | cons q s => cases hq : Scan.isDelimiter q <;> simp [hq]

end

/-! ### The body -/

/-- The length of a text without the white space at its end. -/
def bodyLength (front : Bytes) : Nat := front.length - (front.reverse.takeWhile isBlank).length

theorem bodyLength_of_blank {front : Bytes} (h : front.all isBlank = true) : bodyLength front = 0 := by
  have hrun := Bytes.takeWhile_reverse_append (x := []) h (by simp)
  rw [List.nil_append] at hrun
  rw [bodyLength, hrun, Nat.sub_self]

/-- A text in front counts in full, unless the run of white space reaches into it. -/
theorem bodyLength_append {x front : Bytes}
    (h : front.all isBlank = true → ∀ b ∈ x.getLast?, isBlank b = false) :
    bodyLength (x ++ front) = x.length + bodyLength front := by
  cases hall : front.all isBlank with
  | true =>
    rw [bodyLength_of_blank hall, bodyLength, Bytes.takeWhile_reverse_append hall (h hall), List.length_append,
      Nat.add_sub_cancel, Nat.add_zero]
  | false =>
    have hstops : (front.reverse.takeWhile isBlank).length ≠ front.reverse.length := by
      intro hlen
      have hwhole := List.IsPrefix.eq_of_length (List.takeWhile_prefix isBlank) hlen
      have hblank : front.reverse.all isBlank = true := by
        rw [← hwhole]
        exact List.all_takeWhile
      rw [List.all_reverse, hall] at hblank
      cases hblank
    have hle := (List.takeWhile_prefix isBlank (l := front.reverse)).length_le
    rw [List.length_reverse] at hle
    rw [bodyLength, bodyLength, List.reverse_append, List.takeWhile_append, if_neg hstops, List.length_append]
    omega

variable {o : Options}

theorem readClose?_of_ne {b : UInt8} (hb : b ≠ star) (s : Bytes) : readClose? o (b :: s) = none := by
  have hstrip : Bytes.strip? (Bytes.ofString "*/") (b :: s) = none := by
    show Bytes.strip? [star, slash] (b :: s) = none
    rw [Bytes.strip?, if_neg (Ne.symm hb)]
  rw [readClose?, hstrip]
  rfl

theorem ne_star_of_isBlank {b : UInt8} (hb : isBlank b = true) : b ≠ star := by
  rintro rfl
  exact absurd hb (by decide)

/-- No close starts within a character that is not ASCII, and none starts with one. -/
theorem readClose?_of_raw {b : UInt8} {s y z : Bytes} (hhere : readClose? o (b :: s) = none)
    (hraw : (Rune.first b s).raw = y ++ z) (hz : z ≠ []) :
    readClose? o (z ++ s.drop ((Rune.first b s).raw.length - 1)) = none := by
  cases y with
  | nil =>
    rw [List.nil_append] at hraw
    rw [← hraw, Rune.raw_append_drop]
    exact hhere
  | cons c y =>
    by_cases hb : b < 0x80
    · rw [Rune.first_of_ascii hb] at hraw
      exact absurd (List.append_eq_nil_iff.1 (List.cons.inj hraw).2.symm).2 hz
    · obtain ⟨d, z, rfl⟩ := List.exists_cons_of_ne_nil hz
      have hle : 0x80 ≤ d := Rune.le_of_mem_raw hb (by rw [hraw]; simp)
      refine readClose?_of_ne ?_ _
      rintro rfl
      exact absurd hle (by decide)

/-- Where only white space stands in front of the first close, the close stands behind the white space. -/
theorem findClose?_of_readClose? {s rest : Bytes} (h : readClose? o (Group.skipBlanks s) = some rest) :
    findClose? o s = some (s.takeWhile isBlank, rest) := by
  have hsplit : s = s.takeWhile isBlank ++ Group.skipBlanks s := List.takeWhile_append_dropWhile.symm
  conv => lhs; rw [hsplit]
  refine findClose?_append h fun x y hxy hy => ?_
  obtain ⟨b, y, rfl⟩ := List.exists_cons_of_ne_nil hy
  have hb : isBlank b = true := List.all_eq_true.1 List.all_takeWhile b (by rw [hxy]; simp)
  exact readClose?_of_ne (ne_star_of_isBlank hb) _

theorem readClose?_of_blank_front {s front rest : Bytes} (h : findClose? o s = some (front, rest))
    (hfront : front.all isBlank = true) : readClose? o (Group.skipBlanks s) = some rest := by
  obtain ⟨close, rfl, hclose⟩ := exists_of_findClose? h
  obtain ⟨⟨anchor, rfl⟩, -⟩ := exists_of_readClose? hclose
  rw [Group.skipBlanks_append hfront (by decide)]
  exact hclose

/-! ### The groups -/

section

variable (hkeyword : o.keyword ≠ []) (hutf8 : o.keyword.isUtf8 = true ∧ o.anchor.isUtf8 = true)
  (hplain : Literal.IsPlain o.keyword ∧ Literal.IsPlain o.anchor)

include hkeyword hutf8 hplain

/-- The third group matches a close behind white space. -/
theorem matchGroups?_close (before : Option Rune) (s : Bytes) :
    matchGroups? [blanks :: closePattern o] before (Rune.ofBytes s) =
      (readClose? o (Group.skipBlanks s)).map fun rest => [Rune.ofBytes rest] := by
  let k : Bytes → Option (List (List Rune)) := fun s => (readClose? o s).bind fun rest => some [Rune.ofBytes rest]
  have hclose : ∀ before s, match? (fun _ s => (some []).map (s :: ·)) (closePattern o) before (Rune.ofBytes s) = k s :=
    match?_closePattern hkeyword hutf8 hplain fun _ _ => rfl
  have hskip : ∀ b s, isBlank b = true → k s = none → k (b :: s) = none := by
    intro b s hb _
    show (readClose? o (b :: s)).bind _ = none
    rw [readClose?_of_ne (ne_star_of_isBlank hb)]
    rfl
  have hrun : matchMost (match? (fun _ s => (some []).map (s :: ·)) (closePattern o)) (ascii isBlank) before
      (Rune.ofBytes s) = k (s.dropWhile isBlank) :=
    matchMost_eq (q := fun _ => True) ascii_of_isBlank (fun _ _ => trivial) (fun before s _ => hclose before s)
      hskip trivial s
  refine hrun.trans ?_
  show (readClose? o (Group.skipBlanks s)).bind _ = _
  cases readClose? o (Group.skipBlanks s) <;> rfl

/-- The second group, which is as short as it can be, ends where the white space in front of the first close
starts. -/
theorem matchGroups?_body (before : Option Rune) (s : Bytes) :
    matchGroups? [[.least fun _ => true], blanks :: closePattern o] before (Rune.ofBytes s) =
      (findClose? o s).map fun found => [Rune.ofBytes (s.drop (bodyLength found.1)), Rune.ofBytes found.2] := by
  let go : Option Rune → List Rune → Option (List (List Rune)) := fun before s =>
    (matchGroups? [blanks :: closePattern o] before s).map (s :: ·)
  have hgo : ∀ before s, go before (Rune.ofBytes s) =
      (readClose? o (Group.skipBlanks s)).map fun rest => [Rune.ofBytes s, Rune.ofBytes rest] := by
    intro before s
    show (matchGroups? _ before (Rune.ofBytes s)).map _ = _
    rw [matchGroups?_close hkeyword hutf8 hplain, Option.map_map]
    rfl
  show matchLeast go (fun _ => true) before (Rune.ofBytes s) = _
  induction s using Rune.ofBytes_induction generalizing before with
  | nil => exact hgo before []
  | cons b s ih =>
    have hhead := hgo before (b :: s)
    have hchars := Rune.ofBytes_cons b s
    have hbytes := Rune.raw_append_drop b s
    rw [hchars] at hhead ⊢
    rw [matchLeast, hhead, if_pos rfl, ih]
    cases hclose : readClose? o (Group.skipBlanks (b :: s)) with
    | some rest =>
      rw [findClose?_of_readClose? hclose, ← hchars]
      have hzero := bodyLength_of_blank (List.all_takeWhile (p := isBlank) (l := b :: s))
      simp [hzero]
    | none =>
      have hhere : readClose? o (b :: s) = none := by
        cases hb : isBlank b with
        | true => exact readClose?_of_ne (ne_star_of_isBlank hb) s
        | false =>
          have hstays : Group.skipBlanks (b :: s) = b :: s := by
            rw [Group.skipBlanks, List.dropWhile_cons, hb]
            rfl
          rw [hstays] at hclose
          exact hclose
      have hpast := findClose?_skip fun y z => readClose?_of_raw (y := y) (z := z) hhere
      rw [hbytes] at hpast
      rw [hpast]
      cases hrest : findClose? o (s.drop ((Rune.first b s).raw.length - 1)) with
      | none => rfl
      | some found =>
        -- the white space in front of the close does not reach into this character, or it would match here
        have hlast : found.1.all isBlank = true → ∀ c ∈ (Rune.first b s).raw.getLast?, isBlank c = false := by
          intro hfront c hc
          cases hblank : isBlank c with
          | false => rfl
          | true =>
            have hb : b < 0x80 := by
              by_cases hb : b < 0x80
              · exact hb
              · have hle := Rune.le_of_mem_raw hb (List.mem_of_getLast? hc)
                exact absurd (ascii_of_isBlank c hblank) (UInt8.not_lt.2 hle)
            rw [Rune.first_of_ascii hb] at hc hrest
            change findClose? o s = some found at hrest
            obtain rfl : b = c := Option.some.inj hc
            have hstep : Group.skipBlanks (b :: s) = Group.skipBlanks s := by
              rw [Group.skipBlanks, List.dropWhile_cons, hblank]
              rfl
            rw [hstep, readClose?_of_blank_front hrest hfront] at hclose
            cases hclose
        have hcut : (b :: s).drop (bodyLength ((Rune.first b s).raw ++ found.1)) =
            (s.drop ((Rune.first b s).raw.length - 1)).drop (bodyLength found.1) := by
          rw [bodyLength_append hlast, ← List.drop_drop]
          conv => lhs; arg 2; rw [← hbytes, List.drop_left]
        simp [hcut]

/-- The pattern matches a marker, as far as the white space behind it goes, and the first close behind that. -/
theorem matchGroups?_groups (hmarker : o.marker.isUtf8 = true) (hmark : Literal.IsPlain o.marker)
    (before : Option Rune) (s : Bytes) : matchGroups? (groups o) before (Rune.ofBytes s) =
      (Bytes.strip? o.marker s).bind fun after => (findClose? o (Group.skipBlanks after)).map fun found =>
        [Rune.ofBytes (Group.skipBlanks after), Rune.ofBytes ((Group.skipBlanks after).drop (bodyLength found.1)),
          Rune.ofBytes found.2] := by
  let k : Bytes → Option (List (List Rune)) := fun s => (findClose? o s).map fun found =>
    [Rune.ofBytes s, Rune.ofBytes (s.drop (bodyLength found.1)), Rune.ofBytes found.2]
  let go : Option Rune → List Rune → Option (List (List Rune)) := fun before s =>
    (matchGroups? [[.least fun _ => true], blanks :: closePattern o] before s).map (s :: ·)
  have hgo : ∀ before s, go before (Rune.ofBytes s) = k s := by
    intro before s
    show (matchGroups? _ before (Rune.ofBytes s)).map _ = _
    rw [matchGroups?_body hkeyword hutf8 hplain, Option.map_map]
    rfl
  have hskip : ∀ b s, isBlank b = true → k s = none → k (b :: s) = none := by
    -- a lazy body that starts one byte earlier ends with no other close
    intro b s hb hnone
    show (findClose? o (b :: s)).map _ = none
    rw [findClose?, readClose?_of_ne (ne_star_of_isBlank hb), Option.map_eq_none_iff.1 hnone]
    rfl
  have hrun : ∀ before s, match? go [blanks] before (Rune.ofBytes s) = k (Group.skipBlanks s) := fun before s =>
    matchMost_eq (q := fun _ => True) ascii_of_isBlank (fun _ _ => trivial) (fun before s _ => hgo before s) hskip trivial s
  show match? go (literal o.marker ++ [blanks]) before (Rune.ofBytes s) = _
  rw [match?_append]
  exact match?_literal_of hrun hmarker hmark before s

/-! ### The search -/

variable (hmarker : o.marker.isUtf8 = true) (hmark : Literal.IsPlain o.marker)
  (hopen : Bytes.ofString "/*" <+: o.marker)

include hmarker hmark hopen

/-- **The pattern finds the first marker and the nearest close behind it.** -/
theorem search?_of_nearest {src : Bytes} {s w q p e : Nat} (h : Nearest o src s w p e) (hgap : GapAt src w q p)
    (before : Option Rune) : search? (groups o) before (Rune.ofBytes src) =
      some [Rune.ofBytes (src.drop s), Rune.ofBytes (src.drop w), Rune.ofBytes (src.drop q),
        Rune.ofBytes (src.drop e)] := by
  obtain ⟨note, hnote⟩ := hopen
  obtain ⟨blanks, hdrop, hw, hskip⟩ := h.opens.drop_eq
  obtain ⟨hpe, he⟩ := h.closes.bounds
  have hle := h.le
  have hbody : bodyLength (between src w p) = q - w := by
    have hleft := hgap.left_le
    have hright := hgap.le_right
    rw [bodyLength, hgap.length_trailing (by omega), length_between h.le (by omega)]
    omega
  have hcut : (src.drop w).drop (q - w) = src.drop q := by
    have hleft := hgap.left_le
    rw [List.drop_drop]
    congr 1
    omega
  have hhere : ∀ before, matchGroups? (groups o) before (Rune.ofBytes (src.drop s)) =
      some [Rune.ofBytes (src.drop w), Rune.ofBytes (src.drop q), Rune.ofBytes (src.drop e)] := by
    intro before
    rw [matchGroups?_groups hkeyword hutf8 hplain hmarker hmark, hdrop, Bytes.strip?_append, Option.bind_some, hskip,
      h.findClose?_eq hplain.1 hplain.2, Option.map_some, hbody, hcut]
  have hnone : ∀ z' z, src.take s = z' ++ z → z ≠ [] → ∀ before,
      matchGroups? (groups o) before (Rune.ofBytes (z ++ src.drop s)) = none := by
    intro z' z hz hne before
    have hpos := List.length_pos_iff.2 hne
    have hlen := congrArg List.length hz
    rw [List.length_take, List.length_append] at hlen
    have hplace : src.drop z'.length = z ++ src.drop s := by
      conv => lhs; rw [← List.take_append_drop s src, hz, List.append_assoc, List.drop_left]
    rw [matchGroups?_groups hkeyword hutf8 hplain hmarker hmark]
    cases hstrip : Bytes.strip? o.marker (z ++ src.drop s) with
    | none => rfl
    | some rest =>
      refine absurd ⟨rest, ?_⟩ (h.first z'.length (by omega))
      rw [hplace, Bytes.eq_append_of_strip? hstrip]
  have hhead : ∀ c ∈ (src.drop s).head?, c < 0x80 := by
    rw [hdrop, ← hnote]
    intro c hc
    obtain rfl : slash = c := Option.some.inj hc
    decide
  obtain ⟨before', hsearch⟩ := search?_append hhead hnone before
  rw [List.take_append_drop] at hsearch
  rw [hsearch]
  cases hchars : Rune.ofBytes (src.drop s) with
  | nil =>
    have hfound := hhere before'
    rw [hchars] at hfound
    rw [search?, hfound]
    rfl
  | cons c t =>
    have hfound := hhere before'
    rw [hchars] at hfound
    rw [search?, hfound]

omit hopen in
/-- The pattern finds nothing where no marker has a close behind it. -/
theorem search?_of_not_occurs {src : Bytes} (h : ¬ Occurs o src) (before : Option Rune) :
    search? (groups o) before (Rune.ofBytes src) = none := by
  have hnone : ∀ z' z, src = z' ++ z → ∀ before, matchGroups? (groups o) before (Rune.ofBytes z) = none := by
    intro z' z hz before
    rw [matchGroups?_groups hkeyword hutf8 hplain hmarker hmark]
    cases hstrip : Bytes.strip? o.marker z with
    | none => rfl
    | some after =>
      have hdrop : src.drop z'.length = o.marker ++ after := by
        rw [hz, List.drop_left]
        exact Bytes.eq_append_of_strip? hstrip
      have hopens : OpensAt o src z'.length _ := ⟨⟨after, hdrop.symm⟩, rfl⟩
      obtain ⟨blanks, hsplit, -, hskip⟩ := hopens.drop_eq
      generalize z'.length + o.marker.length +
        ((src.drop (z'.length + o.marker.length)).takeWhile isBlank).length = w at hopens hsplit hskip
      have hinner : Group.skipBlanks after = src.drop w := by
        rw [hdrop, List.append_cancel_left_eq] at hsplit
        rw [hsplit, hskip]
      rw [Option.bind_some, hinner]
      cases hclose : findClose? o (src.drop w) with
      | none => rfl
      | some found =>
        obtain ⟨front, rest⟩ := found
        obtain ⟨close, hfront, hread⟩ := exists_of_findClose? hclose
        have hplace : src.drop (w + front.length) = close := drop_add_of_drop hfront
        rw [← hplace] at hread
        obtain ⟨e, hcloses, -⟩ := exists_closesAt hplain.1 hplain.2 hread
        exact absurd ⟨_, w, _, e, hopens, Nat.le_add_right w _, hcloses⟩ h
  have hbehind : ∀ z' z, src = z' ++ z → z ≠ [] → ∀ before,
      matchGroups? (groups o) before (Rune.ofBytes (z ++ [])) = none := by
    intro z' z hz _ before
    rw [List.append_nil]
    exact hnone z' z hz before
  obtain ⟨before', hsearch⟩ := search?_append (by simp) hbehind before
  rw [List.append_nil] at hsearch
  rw [hsearch, Rune.ofBytes_nil, search?]
  have hempty := hnone src [] (List.append_nil src).symm before'
  rw [Rune.ofBytes_nil] at hempty
  rw [hempty]
  rfl

end

/-! ### The only region -/

theorem offsetOf_ofBytes {src : Bytes} {i : Nat} (h : i ≤ src.length) :
    offsetOf src (Rune.ofBytes (src.drop i)) = i := by
  rw [offsetOf, Rune.flatMap_raw_ofBytes, List.length_drop]
  omega

section

variable {o : Options} {src : Bytes} (hopen : Bytes.ofString "/*" <+: o.marker) (hkeyword : o.keyword ≠ [])
  (hutf8 : o.marker.isUtf8 = true ∧ o.keyword.isUtf8 = true ∧ o.anchor.isUtf8 = true)
  (hplain : Literal.IsPlain o.marker ∧ Literal.IsPlain o.keyword ∧ Literal.IsPlain o.anchor)

include hopen hkeyword hutf8 hplain

/-- Where no marker has a close behind it, both searches find nothing. -/
theorem locate_of_not_occurs (h : ¬ Occurs o src) :
    locate src o = .error (.regionNotFound o.marker o.keyword o.anchor) ∧
      locateByPattern src o = .error (.regionNotFound o.marker o.keyword o.anchor) := by
  constructor
  · simp [locate, hutf8.1, hutf8.2.1, hutf8.2.2, find?_of_not_occurs hopen hplain.1 hplain.2.1 hplain.2.2 h]
  · rw [locateByPattern, search?_of_not_occurs hkeyword hutf8.2 hplain.2 hutf8.1 hplain.1 h]

/-- Both searches find the first marker and the nearest close behind it, and look behind the close again. -/
theorem locate_of_nearest {s w q p e : Nat} (h : Nearest o src s w p e) (hgap : GapAt src w q p) :
    (Occurs o (src.drop e) → locate src o = .error (.ambiguousRegion o.marker) ∧
      locateByPattern src o = .error (.ambiguousRegion o.marker)) ∧
    (¬ Occurs o (src.drop e) →
      locate src o = .ok ⟨between src s w, between src w q, between src q e, s⟩ ∧
      locateByPattern src o = .ok ⟨between src s w, between src w q, between src q e, s⟩) := by
  obtain ⟨hpe, he⟩ := h.closes.bounds
  have hw := h.opens.stop_eq
  have hleft := hgap.left_le
  have hright := hgap.le_right
  have hfirst : find? o 0 src = some (⟨between src s w, between src w q, between src q e, s⟩, src.drop e) := by
    rw [find?_of_nearest hopen hplain.1 hplain.2.1 hplain.2.2 h hgap 0, Nat.zero_add]
  have hmatch := search?_of_nearest hkeyword hutf8.2 hplain.2 hutf8.1 hplain.1 hopen h hgap none
  constructor
  · intro hoccurs
    obtain ⟨s', w', q', p', e', hnear, hgap'⟩ := hoccurs.exists_nearest hopen hplain.1 hplain.2.1 hplain.2.2
    constructor
    · simp [locate, hutf8.1, hutf8.2.1, hutf8.2.2, hfirst,
        find?_of_nearest hopen hplain.1 hplain.2.1 hplain.2.2 hnear hgap']
    · rw [locateByPattern, hmatch]
      dsimp only
      rw [search?_of_nearest hkeyword hutf8.2 hplain.2 hutf8.1 hplain.1 hopen hnear hgap']
  · intro hoccurs
    constructor
    · simp [locate, hutf8.1, hutf8.2.1, hutf8.2.2, hfirst,
        find?_of_not_occurs hopen hplain.1 hplain.2.1 hplain.2.2 hoccurs]
    · rw [locateByPattern, hmatch]
      dsimp only
      rw [search?_of_not_occurs hkeyword hutf8.2 hplain.2 hutf8.1 hplain.1 hoccurs, offsetOf_ofBytes (by omega),
        offsetOf_ofBytes (by omega), offsetOf_ofBytes (by omega), offsetOf_ofBytes he]

end

/-- **A region goes from the first marker to the nearest close behind it, and the pattern finds it there.** If there
is no marker, or no close behind the first one, there is no region; if a marker with a close follows the region, it is
not the only one. -/
theorem locate_eq_search {o : Options} (hopen : Bytes.ofString "/*" <+: o.marker) (hkeyword : o.keyword ≠ [])
    (hutf8 : o.marker.isUtf8 = true ∧ o.keyword.isUtf8 = true ∧ o.anchor.isUtf8 = true)
    (hplain : Literal.IsPlain o.marker ∧ Literal.IsPlain o.keyword ∧ Literal.IsPlain o.anchor) (src : Bytes) :
    locate src o = locateByPattern src o ∧
    ((∀ s w p e, OpensAt o src s w → (∀ i < s, ¬ o.marker <+: src.drop i) → w ≤ p → ¬ ClosesAt o src p e) →
      locate src o = .error (.regionNotFound o.marker o.keyword o.anchor)) ∧
    ∀ s w q p e, Nearest o src s w p e → GapAt src w q p →
      (Occurs o (src.drop e) → locate src o = .error (.ambiguousRegion o.marker)) ∧
      (¬ Occurs o (src.drop e) → ∃ r, locate src o = .ok r ∧ r.start = s ∧ r.opening = between src s w ∧
        r.body = between src w q ∧ r.closing = between src q e ∧ r.stop = e) := by
  refine ⟨?_, fun hmissing => ?_, fun s w q p e h hgap => ?_⟩
  · by_cases hoccurs : Occurs o src
    · obtain ⟨s, w, q, p, e, h, hgap⟩ := hoccurs.exists_nearest hopen hplain.1 hplain.2.1 hplain.2.2
      obtain ⟨hmore, honly⟩ := locate_of_nearest hopen hkeyword hutf8 hplain h hgap
      by_cases hagain : Occurs o (src.drop e)
      · rw [(hmore hagain).1, (hmore hagain).2]
      · rw [(honly hagain).1, (honly hagain).2]
    · obtain ⟨hdirect, hpattern⟩ := locate_of_not_occurs hopen hkeyword hutf8 hplain hoccurs
      rw [hdirect, hpattern]
  · refine (locate_of_not_occurs hopen hkeyword hutf8 hplain fun hoccurs => ?_).1
    obtain ⟨s, w, q, p, e, h, -⟩ := hoccurs.exists_nearest hopen hplain.1 hplain.2.1 hplain.2.2
    exact hmissing s w p e h.opens h.first h.le h.closes
  · obtain ⟨hmore, honly⟩ := locate_of_nearest hopen hkeyword hutf8 hplain h hgap
    refine ⟨fun hagain => (hmore hagain).1, fun hagain => ?_⟩
    exact ⟨_, (honly hagain).1, rfl, rfl, rfl, rfl, h.stop_eq hgap⟩

/-- A file with a second marker in front of the close, and with the end of a comment that has no anchor group behind
it. -/
theorem locate_eq_search_two_markers :
    let o : Options := { marker := "/* m", keyword := "d", anchor := "z" }
    let src : Bytes := "é/* m\n*/ x /* m\n\t*/ d(\r`z"
    Bytes.ofString "/*" <+: o.marker ∧ o.keyword ≠ [] ∧
      (o.marker.isUtf8 = true ∧ o.keyword.isUtf8 = true ∧ o.anchor.isUtf8 = true) ∧
      (Literal.IsPlain o.marker ∧ Literal.IsPlain o.keyword ∧ Literal.IsPlain o.anchor) ∧
      Nearest o src 2 7 18 26 ∧ GapAt src 7 16 18 ∧ ¬ Occurs o (src.drop 26) ∧
      locate src o = locateByPattern src o ∧
      ∃ r, locate src o = .ok r ∧ r.start = 2 ∧ r.opening = "/* m\n" ∧ r.body = "*/ x /* m" ∧
        r.closing = "\n\t*/ d(\r`z" ∧ r.stop = 26 := by
  intro o src
  have hopen : Bytes.ofString "/*" <+: o.marker := by decide
  have hkeyword : o.keyword ≠ [] := by decide
  have hutf8 : o.marker.isUtf8 = true ∧ o.keyword.isUtf8 = true ∧ o.anchor.isUtf8 = true := by decide
  have hplain : Literal.IsPlain o.marker ∧ Literal.IsPlain o.keyword ∧ Literal.IsPlain o.anchor := by decide
  have hnone : ∀ i < 18, 7 ≤ i → readClose? o (src.drop i) = none := by decide +kernel
  have hnear : Nearest o src 2 7 18 26 := by
    refine ⟨⟨by decide, by decide⟩, by decide, by decide, ?_, fun i hwi hip j hcloses => ?_⟩
    · exact ⟨_, ⟨by decide, [space], [cr], grave, by decide, by decide, by decide, rfl⟩, by decide, by decide⟩
    · have hread := hcloses.readClose?_eq hplain.2.1 hplain.2.2
      rw [hnone i hip hwi] at hread
      cases hread
  have hgap : GapAt src 7 16 18 := by
    refine ⟨by decide, by decide, by decide, fun b hb => ?_⟩
    obtain rfl : 0x6d = b := Option.some.inj hb
    rfl
  have honly : ¬ Occurs o (src.drop 26) := by
    rintro ⟨i, w, p, e, hopens, -, -⟩
    have hempty : (src.drop 26).drop i = [] := by
      rw [show src.drop 26 = [] by decide, List.drop_nil]
    have hmarker := hopens.marker
    rw [hempty, List.prefix_nil] at hmarker
    cases hmarker
  obtain ⟨hsame, -, hfound⟩ := locate_eq_search hopen hkeyword hutf8 hplain src
  exact ⟨hopen, hkeyword, hutf8, hplain, hnear, hgap, honly, hsame, (hfound _ _ _ _ _ hnear hgap).2 honly⟩

end Spotlight.Region
