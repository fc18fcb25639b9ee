import Spotlight.Proofs.Group.Reading

/-!
# The headers of a text in parts

* `Group.headersFrom_append` — where no header goes over a cut, the headers of a text are those of its
  parts;
* `Group.topLevel_eq_filter` — a header is at the top level when the scanner arrives at it as at the
  start of a text;
* `Group.names_append` — the names of a text are those of its front and those behind it;
* `Group.namesBehind_congr` — the names behind a cut depend little on what stands in front of it.
-/

namespace Spotlight

open Bytes

/-! ### The scanner on both sides of a cut -/

namespace Scan

/-- In front of a cut it does not matter what stands behind. -/
theorem stateAt_left {x : Bytes} {i : Nat} (hi : i < x.length) (y : Bytes) :
    stateAt (x ++ y) i = stateAt x i := by
  have htake : (x ++ y).take i = x.take i := List.take_append_of_le_length (by omega)
  have hdrop : (x ++ y).drop i = x.drop i ++ y := List.drop_append_of_le_length (by omega)
  have hhead : (x.drop i ++ y).head? = (x.drop i).head? := by
    rw [List.drop_eq_getElem_cons hi]
    rfl
  rw [stateAt, stateAt, htake, hdrop, hhead]

/-- Behind a cut it does not matter what stands in front, from a place on where the scanner arrives in
the same state. -/
theorem stateAt_right {x x' y : Bytes} {i j : Nat}
    (h : stateAt (x ++ y) (x.length + i) = stateAt (x' ++ y) (x'.length + i)) (hij : i ≤ j) :
    stateAt (x ++ y) (x.length + j) = stateAt (x' ++ y) (x'.length + j) := by
  obtain ⟨k, rfl⟩ := Nat.exists_eq_add_of_le hij
  rw [← Nat.add_assoc, ← Nat.add_assoc, stateAt_add, stateAt_add (x' ++ y), h, ← List.drop_drop,
    ← List.drop_drop, List.drop_left, List.drop_left]

theorem inert_of_isWord {b : UInt8} (h : isWord b = true) : isInert b = true := by
  have hne : ∀ c : UInt8, isWord c = false → b ≠ c := by
    rintro c hc rfl
    rw [h] at hc
    exact absurd hc (by decide)
  simp only [isInert, isDelimiter, bne, beq_false_of_ne (hne slash rfl),
    beq_false_of_ne (hne apostrophe rfl), beq_false_of_ne (hne quote rfl),
    beq_false_of_ne (hne grave rfl), beq_false_of_ne (hne lbrace rfl), beq_false_of_ne (hne rbrace rfl)]
  rfl

theorem inert_of_isSpace {b : UInt8} (h : isSpace b = true) : isInert b = true := by
  simp only [isSpace, isBlank, Bool.or_eq_true, beq_iff_eq] at h
  rcases h with ((((rfl | rfl) | rfl) | rfl) | rfl) | rfl <;> rfl

theorem all_inert_of_isSpace {w : Bytes} (h : w.all isSpace = true) : w.all isInert = true :=
  List.all_eq_true.2 fun c hc => inert_of_isSpace (List.all_eq_true.1 h c hc)

theorem not_isWord_of_isSpace {b : UInt8} (h : isSpace b = true) : isWord b = false := by
  simp only [isSpace, isBlank, Bool.or_eq_true, beq_iff_eq] at h
  rcases h with ((((rfl | rfl) | rfl) | rfl) | rfl) | rfl <;> rfl

/-- Where the scanner arrives as at the start, an inert byte is a code byte at depth zero. -/
theorem mem_visits {src : Bytes} {i : Nat} {b : UInt8} {rest : Bytes}
    (hstate : stateAt src i = State.start) (hdrop : src.drop i = b :: rest) (hb : isInert b = true) :
    ⟨i, b, 0⟩ ∈ visits src 0 := by
  have hlt : i < src.length := by
    have hlen := congrArg List.length hdrop
    rw [List.length_drop, List.length_cons] at hlen
    omega
  have hlen : (src.take i).length = i := by
    rw [List.length_take]
    omega
  have hsrc : src = src.take i ++ b :: rest := by rw [← hdrop, List.take_append_drop]
  rw [stateAt, hdrop] at hstate
  rw [visits, List.drop_zero, hsrc, visitsFrom_append, hlen, Nat.zero_add, hstate]
  have hmore := visitsFrom_inert (s := State.start) rfl rfl (x := [b]) (by simpa using hb) i rest
  rw [List.singleton_append] at hmore
  rw [hmore]
  exact List.mem_append_right _ (List.mem_append_left _ (by simp [State.start]))

/-- Inert bytes behind a place where the scanner arrives as at the start change nothing. -/
theorem stateAt_add_inert {x w y : Bytes} {i : Nat} (hi : stateAt (x ++ (w ++ y)) x.length = State.start)
    (hw : w.all isInert = true) (hle : i ≤ w.length) :
    stateAt (x ++ (w ++ y)) (x.length + i) = State.start := by
  rw [stateAt_add, hi, List.drop_left, List.take_append_of_le_length hle, State.run_inert rfl]
  rw [List.all_eq_true] at hw ⊢
  intro b hb
  exact hw b (List.mem_of_mem_take hb)

end Scan

namespace Group

/-! ### Headers on both sides of a cut -/

section

variable {keyword : Bytes} {names : NamePattern}

/-- The header in a text that starts `n` bytes further on. -/
def Header.shift (n : Nat) (h : Header) : Header := ⟨h.start + n, h.stop + n, h.name⟩

theorem headersFrom_shift (skip i n : Nat) (before : Option UInt8) (s : Bytes) :
    headersFrom keyword names skip (i + n) before s =
      (headersFrom keyword names skip i before s).map (Header.shift n) := by
  fun_induction headersFrom keyword names skip i before s with
  | case1 => simp [headersFrom]
  | case2 skip i before b s ih => rw [headersFrom, ← ih, Nat.add_right_comm]
  | case3 i before b s name rest hread ih =>
    have hlen : i + 1 + n + (s.length - rest.length) = i + 1 + (s.length - rest.length) + n := by omega
    rw [headersFrom, hread, List.map_cons, ← ih, Nat.add_right_comm i n 1]
    dsimp only [Header.shift]
    rw [hlen]
  | case4 i before b s hnone ih => rw [headersFrom, hnone, ← ih, Nat.add_right_comm]

theorem getLast?_or_cons (b : UInt8) (x : Bytes) (before : Option UInt8) :
    (b :: x).getLast?.or before = x.getLast?.or (some b) := by
  rw [List.getLast?_cons, Option.or_some]
  rfl

/-- A header of a text is read with the byte in front of it. -/
theorem exists_of_mem_allHeadersFrom {i : Nat} {before : Option UInt8} {s : Bytes} {h : Header}
    (hmem : h ∈ allHeadersFrom keyword names i before s) :
    ∃ front text rest, s = front ++ text ∧ h.start = i + front.length ∧
      h.stop + rest.length = i + s.length ∧
      readHeader? keyword names (front.getLast?.or before) text = some (h.name, rest) := by
  have hcons : ∀ {i : Nat} {b : UInt8} {s : Bytes} (before : Option UInt8),
      (∃ front text rest, s = front ++ text ∧ h.start = i + 1 + front.length ∧
        h.stop + rest.length = i + 1 + s.length ∧
        readHeader? keyword names (front.getLast?.or (some b)) text = some (h.name, rest)) →
      ∃ front text rest, b :: s = front ++ text ∧ h.start = i + front.length ∧
        h.stop + rest.length = i + (b :: s).length ∧
        readHeader? keyword names (front.getLast?.or before) text = some (h.name, rest) := by
    rintro i b s before ⟨front, text, rest, rfl, hstart, hstop, hread⟩
    refine ⟨b :: front, text, rest, rfl, ?_, ?_, ?_⟩
    · rw [hstart, List.length_cons]
      omega
    · rw [hstop, List.length_cons]
      omega
    · rw [getLast?_or_cons]
      exact hread
  fun_induction allHeadersFrom keyword names i before s with
  | case1 => simp at hmem
  | case2 i before b s name rest hread ih =>
    rcases List.mem_cons.1 hmem with rfl | hmem
    · obtain ⟨k, mid, hs, -⟩ := exists_of_readHeader? hread
      have hlen := congrArg List.length hs
      simp only [List.length_append, List.length_cons] at hlen
      refine ⟨[], b :: s, rest, rfl, rfl, ?_, hread⟩
      dsimp only
      rw [List.length_cons]
      omega
    · exact hcons before (ih hmem)
  | case3 i before b s hnone ih => exact hcons before (ih hmem)

/-- A header that is found is read with the byte in front of it. -/
theorem exists_of_mem_headersFrom {skip i : Nat} {before : Option UInt8} {s : Bytes} {h : Header}
    (hmem : h ∈ headersFrom keyword names skip i before s) :
    ∃ front text rest, s = front ++ text ∧ h.start = i + front.length ∧
      h.stop + rest.length = i + s.length ∧
      readHeader? keyword names (front.getLast?.or before) text = some (h.name, rest) :=
  exists_of_mem_allHeadersFrom ((headersFrom_sublist skip i before s).subset hmem)

/-- A header starts with the byte the keyword starts with. -/
theorem head?_of_readHeader? (hp : Literal.IsPlain keyword) (hword : keyword.head?.any isWord = true)
    {before : Option UInt8} {s name rest : Bytes}
    (h : readHeader? keyword names before s = some (name, rest)) :
    ∃ b t, s = b :: t ∧ isWord b = true := by
  obtain ⟨-, inner, -, -, hkey, -⟩ := readHeader?_eq_some_iff.1 h
  rw [Literal.strip?_eq_bytes hp] at hkey
  obtain rfl := Bytes.eq_append_of_strip? hkey
  cases keyword with
  | nil => simp at hword
  | cons b k => exact ⟨b, k ++ lparen :: inner, rfl, by simpa using hword⟩

/-- The byte in front of a text does not matter when there is a word boundary either way, or never. -/
theorem headersFrom_before (i : Nat) {before before' : Option UInt8} {s : Bytes}
    (h : readHeader? keyword names before s = readHeader? keyword names before' s) :
    headersFrom keyword names 0 i before s = headersFrom keyword names 0 i before' s := by
  cases s with
  | nil => rfl
  | cons b s => rw [headersFrom, headersFrom, h]

end

/-- A part of a text that ends in front of a cut. -/
theorem exists_of_append_eq {x y t rest : Bytes} (h : x ++ y = t ++ rest) (hle : t.length ≤ x.length) :
    ∃ x', x = t ++ x' ∧ rest = x' ++ y := by
  rcases List.append_eq_append_iff.1 h with ⟨t', rfl, hy⟩ | ⟨x', rfl, hrest⟩
  · rw [List.length_append] at hle
    obtain rfl : t' = [] := List.eq_nil_of_length_eq_zero (by omega)
    exact ⟨[], by simp, by simpa using hy.symm⟩
  · exact ⟨x', rfl, hrest⟩

/-- No header of the text goes over the offset. -/
def PartsAt (keyword text : Bytes) (i : Nat) : Prop :=
  ∀ h ∈ headers keyword .any text, h.start < i → h.stop ≤ i

instance (keyword text : Bytes) (i : Nat) : Decidable (PartsAt keyword text i) :=
  inferInstanceAs (Decidable (∀ h ∈ headers keyword .any text, h.start < i → h.stop ≤ i))

/-- **The headers of a text are those of its parts,** where no header goes over the cut. -/
theorem headersFrom_append {keyword : Bytes} (hp : Literal.IsPlain keyword) {x y : Bytes} {skip i : Nat}
    {before : Option UInt8} (hskip : skip ≤ x.length)
    (hparts : ∀ h ∈ headersFrom keyword .any skip i before (x ++ y), h.start < i + x.length →
      h.stop ≤ i + x.length) :
    headersFrom keyword .any skip i before (x ++ y) =
      headersFrom keyword .any skip i before x ++
        headersFrom keyword .any 0 (i + x.length) (x.getLast?.or before) y := by
  induction x generalizing skip i before with
  | nil =>
    obtain rfl : skip = 0 := Nat.le_zero.1 hskip
    rfl
  | cons b x ih =>
    have hlen : i + (b :: x).length = i + 1 + x.length := by
      rw [List.length_cons]
      omega
    rw [hlen] at hparts ⊢
    rw [getLast?_or_cons]
    cases skip with
    | succ skip => exact ih (Nat.le_of_succ_le_succ hskip) hparts
    | zero =>
      rw [List.cons_append] at hparts ⊢
      cases hread : readHeader? keyword .any before (b :: (x ++ y)) with
      | none =>
        have hnone : readHeader? keyword .any before (b :: x) = none := by
          cases hx : readHeader? keyword .any before (b :: x) with
          | none => rfl
          | some found =>
            obtain ⟨blanks, q, argument, hs, -, -, -, -, hlocal⟩ := exists_of_readAny? hp hx
            have hmore := hlocal (found.2 ++ y)
            rw [← List.append_assoc, ← hs, List.cons_append, hread] at hmore
            simp at hmore
        rw [headersFrom, hread] at hparts ⊢
        rw [headersFrom, hnone]
        exact ih (Nat.zero_le _) hparts
      | some found =>
        obtain ⟨name, rest⟩ := found
        rw [headersFrom, hread] at hparts ⊢
        dsimp only at hparts ⊢
        have hstop := hparts _ List.mem_cons_self (by dsimp only; omega)
        dsimp only at hstop
        -- the header ends in front of the cut, so it is read there, too
        obtain ⟨blanks, q, argument, hs, -, -, -, -, hlocal⟩ := exists_of_readAny? hp hread
        obtain ⟨t, ht⟩ : ∃ t, headerText keyword blanks q name argument = b :: t := by
          cases hcase : headerText keyword blanks q name argument with
          | nil => cases keyword <;> simp [headerText] at hcase
          | cons c t =>
            rw [hcase] at hs
            exact ⟨t, by rw [(List.cons.inj hs).1]⟩
        rw [ht] at hs hlocal
        have hxy : x ++ y = t ++ rest := (List.cons.inj hs).2
        have hlens := congrArg List.length hxy
        simp only [List.length_append] at hlens hstop
        obtain ⟨x', rfl, rfl⟩ := exists_of_append_eq hxy (by omega)
        have hx : readHeader? keyword .any before (b :: (t ++ x')) = some (name, x') := hlocal x'
        have hrest : (t ++ x' ++ y).length - (x' ++ y).length = t.length := by
          simp only [List.length_append]
          omega
        have hrest' : (t ++ x').length - x'.length = t.length := by
          rw [List.length_append]
          omega
        rw [hrest] at hparts ⊢
        rw [headersFrom, hx]
        dsimp only
        rw [hrest', List.cons_append]
        congr 1
        exact ih (by rw [List.length_append]; omega) fun h hmem => hparts h (List.mem_cons_of_mem _ hmem)

theorem headers_append {keyword : Bytes} (hp : Literal.IsPlain keyword) {x y : Bytes}
    (hparts : PartsAt keyword (x ++ y) x.length) :
    headers keyword .any (x ++ y) = headers keyword .any x ++
      (headersFrom keyword .any 0 0 x.getLast? y).map (Header.shift x.length) := by
  have hcut : headersFrom keyword .any 0 0 none (x ++ y) = headersFrom keyword .any 0 0 none x ++
      headersFrom keyword .any 0 (0 + x.length) (x.getLast?.or none) y := by
    apply headersFrom_append hp (Nat.zero_le _)
    rw [Nat.zero_add]
    exact hparts
  rw [headers, headers, hcut, headersFrom_shift, Option.or_none]

section

variable {keyword : Bytes} (hp : Literal.IsPlain keyword) (hword : keyword.head?.any isWord = true)
include hp hword

/-- A header lies in the text and starts with a word byte. -/
theorem exists_of_mem_headersFrom_zero {names : NamePattern} {before : Option UInt8} {s : Bytes}
    {h : Header} (hmem : h ∈ headersFrom keyword names 0 0 before s) :
    ∃ b t, s.drop h.start = b :: t ∧ isWord b = true ∧ h.start < s.length := by
  obtain ⟨front, text, rest, rfl, hstart, -, hread⟩ := exists_of_mem_headersFrom hmem
  obtain ⟨b, t, rfl, hb⟩ := head?_of_readHeader? hp hword hread
  rw [Nat.zero_add] at hstart
  refine ⟨b, t, ?_, hb, ?_⟩
  · rw [hstart, List.drop_left]
  · rw [hstart, List.length_append, List.length_cons]
    omega

/-- A header is at the top level when the scanner arrives at it as at the start of a text. -/
theorem topLevel_eq_filter (names : NamePattern) (s : Bytes) :
    topLevel keyword names s =
      (headers keyword names s).filter fun h => Scan.stateAt s h.start = Scan.State.start := by
  have hsame : ∀ h ∈ headers keyword names s,
      ((Scan.visits s 0).any fun v => v.offset == h.start && v.depth == 0) =
        decide (Scan.stateAt s h.start = Scan.State.start) := by
    intro h hmem
    obtain ⟨b, t, hdrop, hb, hlt⟩ := exists_of_mem_headersFrom_zero hp hword hmem
    rw [Bool.eq_iff_iff, List.any_eq_true, decide_eq_true_eq]
    constructor
    · rintro ⟨v, hv, hoff⟩
      rw [Bool.and_eq_true, beq_iff_eq, beq_iff_eq] at hoff
      obtain ⟨-, hstate, -⟩ := Scan.stateAt_of_mem rfl hv
      rw [← hoff.1, hstate, hoff.2]
      rfl
    · intro hstate
      exact ⟨⟨h.start, b, 0⟩, Scan.mem_visits hstate hdrop (Scan.inert_of_isWord hb), by simp⟩
  unfold topLevel
  split
  · rename_i hnil
    rw [hnil]
    rfl
  · exact List.filter_congr hsame

/-- The byte in front of a text does not matter when it is a word byte either way, or never, or when no
word follows. -/
theorem readHeader?_before {names : NamePattern} {before before' : Option UInt8} {s : Bytes}
    (h : s.head?.any isWord = true → before.any isWord = before'.any isWord) :
    readHeader? keyword names before s = readHeader? keyword names before' s := by
  by_cases hhead : s.head?.any isWord = true
  · have hbound : isBoundary before s.head? = isBoundary before' s.head? := by
      rw [isBoundary, isBoundary, h hhead]
    rw [readHeader?, readHeader?, hbound]
  · have hnone : ∀ before, readHeader? keyword names before s = none := by
      intro before
      cases hread : readHeader? keyword names before s with
      | none => rfl
      | some found =>
        obtain ⟨b, t, rfl, hb⟩ := head?_of_readHeader? hp hword hread
        exact absurd hb hhead
    rw [hnone, hnone]

/-- The names of the groups that a text has behind a cut. -/
def namesBehind (keyword x y : Bytes) : List Bytes :=
  (((headersFrom keyword .any 0 0 x.getLast? y).map (Header.shift x.length)).filter fun h =>
    Scan.stateAt (x ++ y) h.start = Scan.State.start).map Header.name

/-- **The names of a text are those of its front and those behind it.** -/
theorem names_append {x y : Bytes} (hparts : PartsAt keyword (x ++ y) x.length) :
    names keyword (x ++ y) = names keyword x ++ namesBehind keyword x y := by
  have hfront : (headers keyword .any x).filter
        (fun h => Scan.stateAt (x ++ y) h.start = Scan.State.start) =
      (headers keyword .any x).filter fun h => Scan.stateAt x h.start = Scan.State.start := by
    apply List.filter_congr
    intro h hmem
    obtain ⟨-, -, -, -, hlt⟩ := exists_of_mem_headersFrom_zero hp hword hmem
    rw [Scan.stateAt_left hlt]
  rw [names, names, namesBehind, topLevel_eq_filter hp hword, topLevel_eq_filter hp hword,
    headers_append hp hparts,
    List.filter_append, hfront, List.map_append]

/-- The names behind a cut depend on the front only through the byte in front of a word, and the state in
which the scanner arrives behind the white space. -/
theorem namesBehind_congr {x x' w t : Bytes} (hw : w.all Scan.isSpace = true)
    (hbefore : (w ++ t).head?.any isWord = true → x.getLast?.any isWord = x'.getLast?.any isWord)
    (hstate : t ≠ [] → Scan.stateAt (x ++ (w ++ t)) (x.length + w.length) =
      Scan.stateAt (x' ++ (w ++ t)) (x'.length + w.length)) :
    namesBehind keyword x (w ++ t) = namesBehind keyword x' (w ++ t) := by
  have hread : readHeader? keyword .any x.getLast? (w ++ t) =
      readHeader? keyword .any x'.getLast? (w ++ t) := readHeader?_before hp hword hbefore
  have hhead := headersFrom_before 0 hread
  rw [namesBehind, namesBehind, hhead, List.filter_map, List.filter_map, List.map_map, List.map_map]
  have hname : ∀ n, Header.name ∘ Header.shift n = Header.name := fun n => rfl
  rw [hname, hname]
  congr 1
  apply List.filter_congr
  intro h hmem
  obtain ⟨b, r, hdrop, hb, hlt⟩ := exists_of_mem_headersFrom_zero hp hword hmem
  -- a word byte does not stand in the white space
  have hle : w.length ≤ h.start := by
    apply Nat.le_of_not_lt
    intro hin
    rw [List.drop_append_of_le_length (by omega), List.drop_eq_getElem_cons hin] at hdrop
    obtain rfl : w[h.start] = b := (List.cons.inj hdrop).1
    have hspace := List.all_eq_true.1 hw _ (List.getElem_mem hin)
    rw [Scan.not_isWord_of_isSpace hspace] at hb
    exact absurd hb (by decide)
  have ht : t ≠ [] := by
    rintro rfl
    rw [List.append_nil] at hlt
    omega
  have hsame := Scan.stateAt_right (hstate ht) hle
  show decide (Scan.stateAt (x ++ (w ++ t)) (h.start + x.length) = _) =
    decide (Scan.stateAt (x' ++ (w ++ t)) (h.start + x'.length) = _)
  rw [Nat.add_comm h.start, Nat.add_comm h.start, hsame]

/-- White space holds no header. -/
theorem headersFrom_space {names : NamePattern} {w : Bytes} (hw : w.all Scan.isSpace = true) (i : Nat)
    (before : Option UInt8) (s : Bytes) :
    headersFrom keyword names 0 i before (w ++ s) =
      headersFrom keyword names 0 (i + w.length) (w.getLast?.or before) s := by
  induction w generalizing i before with
  | nil => rfl
  | cons b w ih =>
    rw [List.all_cons, Bool.and_eq_true] at hw
    have hnone : readHeader? keyword names before (b :: (w ++ s)) = none := by
      cases hread : readHeader? keyword names before (b :: (w ++ s)) with
      | none => rfl
      | some found =>
        obtain ⟨c, t, hs, hc⟩ := head?_of_readHeader? hp hword hread
        obtain rfl : b = c := (List.cons.inj hs).1
        rw [Scan.not_isWord_of_isSpace hw.1] at hc
        exact absurd hc (by decide)
    rw [List.cons_append, headersFrom, hnone]
    dsimp only
    rw [ih hw.2, getLast?_or_cons, List.length_cons, Nat.add_assoc, Nat.add_comm 1]

end

end Group

end Spotlight
