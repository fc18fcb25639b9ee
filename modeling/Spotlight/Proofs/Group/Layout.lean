import Spotlight.Proofs.Group.Header
import Spotlight.Proofs.Scan.Passage
import Spotlight.Proofs.Text.Bytes

/-!
# How a group lies in the body it is taken from

* `Group.Layout` — a body cut at the seams of a group: what stands in front, the white space before the
  header, the keyword, the rest of the group, and what stands behind;
* `Group.layout_of_extract` — every group that is taken out has such a layout, however its end was
  found;
* `Group.getLast?_of_extract` — and it ends with a parenthesis or a semicolon.
-/

namespace Spotlight.Group

open Bytes

/-- A body cut at the seams of a group. -/
structure Layout (body : Bytes) (o : Options) (g : Group) where
  /-- What stands in front of the group. -/
  front : Bytes
  /-- The white space before the header. -/
  gap : Bytes
  /-- The bytes that match the keyword. -/
  keyword : Bytes
  /-- The rest of the group, behind the parenthesis after the keyword. -/
  rest : Bytes
  /-- What stands behind the group. -/
  back : Bytes
  body_eq : body = front ++ (g.raw ++ back)
  start_eq : g.start = front.length
  raw_eq : g.raw = gap ++ (keyword ++ lparen :: rest)
  gap_space : gap.all Scan.isSpace = true
  keyword_match : Literal.strip? o.keyword (keyword ++ lparen :: (rest ++ back)) =
    some (lparen :: (rest ++ back))

namespace Layout

variable {body : Bytes} {o : Options} {g : Group} (l : Layout body o g)

include l

theorem stop_eq : g.stop = (l.front ++ g.raw).length := by
  rw [List.length_append, ← l.start_eq]
  rfl

theorem body_split : body = (l.front ++ g.raw) ++ l.back := by
  rw [List.append_assoc]
  exact l.body_eq

theorem take_start : body.take g.start = l.front := by
  rw [l.start_eq]
  exact (congrArg (List.take _) l.body_eq).trans List.take_left

theorem drop_stop : body.drop g.stop = l.back := by
  rw [l.stop_eq]
  exact (congrArg (List.drop _) l.body_split).trans List.drop_left

/-- The last byte of a group is the one in front of its end. -/
theorem getLast?_raw : g.raw.getLast? = body[g.stop - 1]? := by
  have hpos : 0 < g.raw.length := by
    rw [l.raw_eq]
    simp only [List.length_append, List.length_cons]
    omega
  have hindex : g.stop - 1 = l.front.length + (g.raw.length - 1) := by
    rw [l.stop_eq, List.length_append]
    omega
  calc g.raw.getLast? = g.raw[g.raw.length - 1]? := List.getLast?_eq_getElem?
    _ = (l.front ++ (g.raw ++ l.back))[l.front.length + (g.raw.length - 1)]? := by
        rw [List.getElem?_append_right (Nat.le_add_right _ _), Nat.add_sub_cancel_left,
          List.getElem?_append_left (by omega)]
    _ = body[g.stop - 1]? := by rw [← l.body_eq, hindex]

end Layout

section

variable {body : Bytes} {o : Options}

/-- A slice from the white space before a header to an offset behind that header. -/
theorem layout_of_slice {names : NamePattern} {h : Header} {name : Bytes} {start stop : Nat}
    (hs : Stands o.keyword names 0 body h) (hstart : start ≤ h.start)
    (hgap : ((body.take h.start).drop start).all Scan.isSpace = true) (hle : h.stop ≤ stop)
    (hstop : stop ≤ body.length) :
    ∃ l : Layout body o (slice name body start stop), l.front.length + l.gap.length = h.start := by
  obtain ⟨front, text, rest, before, rfl, hfront, hend, hread⟩ := hs
  obtain ⟨k, mid, rfl, hstrip⟩ := exists_of_readHeader? hread
  rw [Nat.zero_add] at hfront
  rw [hfront, List.take_left] at hgap
  -- the end of the group lies behind the brace of the header
  generalize htext : mid ++ lbrace :: rest = t at *
  have htlen := congrArg List.length htext
  simp only [List.length_append, List.length_cons] at htlen hend hstop
  let n := stop - (front.length + k.length + 1)
  have hcut : t = t.take n ++ t.drop n := (List.take_append_drop n t).symm
  have hn : (t.take n).length = n := by
    rw [List.length_take]
    omega
  have hsplit : front = front.take start ++ front.drop start := (List.take_append_drop start front).symm
  have hraw : ((front ++ (k ++ lparen :: t)).drop start).take (stop - start)
      = front.drop start ++ (k ++ lparen :: t.take n) := by
    have hassoc : front.drop start ++ (k ++ lparen :: t)
        = (front.drop start ++ (k ++ lparen :: t.take n)) ++ t.drop n := by
      rw [List.append_assoc, List.append_assoc, List.cons_append, ← hcut]
    rw [List.drop_append_of_le_length (by omega), hassoc]
    apply List.take_left'
    simp only [List.length_append, List.length_cons, List.length_drop, hn]
    omega
  refine ⟨⟨front.take start, front.drop start, k, t.take n, t.drop n, ?_, ?_, hraw, hgap, ?_⟩, ?_⟩
  · show _ = _ ++ (((front ++ (k ++ lparen :: t)).drop start).take (stop - start) ++ _)
    rw [hraw, List.append_assoc, List.append_assoc, List.cons_append, ← hcut,
      ← List.append_assoc (front.take start), ← hsplit]
  · show start = (front.take start).length
    rw [List.length_take]
    omega
  · rw [← hcut]
    exact hstrip
  · show (front.take start).length + (front.drop start).length = h.start
    rw [← List.length_append, ← hsplit, hfront]

/-- A slice ends where it was cut. -/
theorem slice_stop {name : Bytes} {start stop : Nat} (hle : start ≤ stop) (hstop : stop ≤ body.length) :
    (slice name body start stop).stop = stop := by
  show start + ((body.drop start).take (stop - start)).length = stop
  rw [List.length_take, List.length_drop]
  omega

theorem only_eq_ok {α : Type} {l : List α} {a : α} (h : only o l = .ok a) : l = [a] := by
  unfold only at h
  split at h
  · simp at h
  · cases h
    rfl
  · simp at h

/-- A group whose end is found by counting braces. -/
theorem exists_of_extractBalanced {g : Group} (h : extractBalanced body o = .ok g) :
    ∃ hd brace stop, topLevel o.keyword (.exactly o.name) body = [hd] ∧
      Scan.matchBrace? body (hd.stop - 1) = some brace ∧ Scan.closeCall? body brace = some stop ∧
      g = slice o.name body (Scan.leadingSpace body hd.start) stop := by
  unfold extractBalanced at h
  cases htop : only o (topLevel o.keyword (.exactly o.name) body) with
  | error f => rw [htop] at h; simp [bind, Except.bind] at h
  | ok hd =>
    rw [htop] at h
    simp only [bind, Except.bind] at h
    split at h
    · simp at h
    · rename_i brace hbrace
      split at h
      · simp at h
      · rename_i stop hstop
        cases h
        exact ⟨hd, brace, stop, only_eq_ok htop, hbrace, hstop, rfl⟩

/-- A group whose end is found by counting braces lies between the white space before its header and
the end of its call. -/
theorem layout_of_extractBalanced {g : Group} (h : extractBalanced body o = .ok g) :
    ∃ (l : Layout body o g) (hd : Header) (brace : Nat),
      topLevel o.keyword (.exactly o.name) body = [hd] ∧ l.front.length + l.gap.length = hd.start ∧
      Scan.matchBrace? body (hd.stop - 1) = some brace ∧ Scan.closeCall? body brace = some g.stop := by
  obtain ⟨hd, brace, stop, htop, hbrace, hclose, rfl⟩ := exists_of_extractBalanced h
  have hmem : hd ∈ topLevel o.keyword (.exactly o.name) body := by rw [htop]; exact List.mem_cons_self
  obtain ⟨hstands, v, hv, hoff, -⟩ := of_mem_topLevel hmem
  have hlt := (Scan.visits_bounds hv).2
  have hpos := hstands.start_lt_stop
  have hmatch := Scan.matchBrace?_bounds hbrace
  have hcall := Scan.closeCall?_bounds hclose
  -- the white space that ends at the header
  have hspace := all_drop_trailing Scan.isSpace (body.take hd.start)
  rw [List.length_take, Nat.min_eq_left (by omega)] at hspace
  obtain ⟨l, hl⟩ : ∃ l : Layout body o (slice o.name body (Scan.leadingSpace body hd.start) stop),
      l.front.length + l.gap.length = hd.start :=
    layout_of_slice hstands
      (Nat.sub_le _ ((body.take hd.start).reverse.takeWhile Scan.isSpace).length) hspace (by omega)
      hcall.2
  have hfront : Scan.leadingSpace body hd.start = l.front.length := l.start_eq
  rw [slice_stop (by omega) hcall.2]
  exact ⟨l, hd, brace, htop, hl, hbrace, hclose⟩

/-- A span that ends at the nearest closing triple starts at a header or in the white space before
it. -/
theorem exists_of_mem_heuristicSpans {start : Nat} {hs : List Header} {span : Nat × Nat}
    (h : span ∈ heuristicSpans body start hs) :
    ∃ hd ∈ hs, ∃ from', from' ≤ hd.start ∧ closerEnd? body hd.stop = some span.2 ∧
      span.1 = hd.start - (((body.take hd.start).drop from').reverse.takeWhile isBlank).length := by
  fun_induction heuristicSpans body start hs with
  | case1 => simp at h
  | case2 start hd hs hlt ih =>
    obtain ⟨hd', hmem, hrest⟩ := ih h
    exact ⟨hd', List.mem_cons_of_mem hd hmem, hrest⟩
  | case3 => simp at h
  | case4 start hd hs hge stop hstop gap ih =>
    rcases List.mem_cons.1 h with rfl | h
    · exact ⟨hd, List.mem_cons_self, start, by omega, hstop, rfl⟩
    · obtain ⟨hd', hmem, hrest⟩ := ih h
      exact ⟨hd', List.mem_cons_of_mem hd hmem, hrest⟩

theorem closerEnd?_bounds {start stop : Nat} (h : closerEnd? body start = some stop) :
    start ≤ stop ∧ stop ≤ body.length := by
  obtain ⟨i, hi, rfl⟩ := Option.map_eq_some_iff.1 h
  have hle := find?_bounds hi
  have hcloser : closer.length = 3 := rfl
  rw [List.length_drop] at hle
  omega

/-- In front of the end of a closing triple stands its semicolon. -/
theorem closerEnd?_last {start stop : Nat} (h : closerEnd? body start = some stop) :
    body[stop - 1]? = some semicolon := by
  obtain ⟨i, hi, rfl⟩ := Option.map_eq_some_iff.1 h
  obtain ⟨⟨x, y, hxy, rfl⟩, -⟩ := exists_of_find? hi
  have hdrop : body.drop (start + (x ++ [rbrace, rparen]).length) = semicolon :: y := by
    apply drop_add_of_drop
    rw [hxy, List.append_assoc]
    rfl
  have hend : start + x.length + closer.length - 1 = start + (x ++ [rbrace, rparen]).length := by
    rw [List.length_append]
    rfl
  rw [hend]
  exact getElem?_of_drop hdrop

theorem isSpace_of_isBlank {b : UInt8} (h : isBlank b = true) : Scan.isSpace b = true := by
  rw [Scan.isSpace, h]
  rfl

/-- A group that ends at the nearest closing triple lies between the white space before its header and that triple. -/
theorem layout_of_extractHeuristic {g : Group} (h : extractHeuristic body o = .ok g) :
    ∃ (_ : Layout body o g) (hd : Header), hd ∈ allHeadersFrom o.keyword (.exactly o.name) 0 none body ∧
      closerEnd? body hd.stop = some g.stop := by
  unfold extractHeuristic at h
  dsimp only at h
  cases honly : only o (heuristicSpans body 0 (allHeadersFrom o.keyword (.exactly o.name) 0 none body)) with
  | error f => rw [honly] at h; simp [bind, Except.bind] at h
  | ok span =>
    rw [honly] at h
    cases h
    have hmem : span ∈ heuristicSpans body 0 (allHeadersFrom o.keyword (.exactly o.name) 0 none body) := by
      rw [only_eq_ok honly]
      exact List.mem_cons_self
    obtain ⟨hd, hhd, from', hfrom, hend, hstart⟩ := exists_of_mem_heuristicSpans hmem
    have hstands := stands_of_mem_allHeadersFrom hhd
    have hlt := hstands.start_lt_stop
    have hbounds := closerEnd?_bounds hend
    -- the white space that ends at the header, but not before the last span
    have hblank := all_drop_trailing isBlank ((body.take hd.start).drop from')
    have hgap : (((body.take hd.start).drop from').reverse.takeWhile isBlank).length
        ≤ ((body.take hd.start).drop from').length := by
      have hle := (List.takeWhile_prefix (l := ((body.take hd.start).drop from').reverse) isBlank).length_le
      rwa [List.length_reverse] at hle
    rw [List.length_drop, List.length_take, Nat.min_eq_left (by omega)] at hblank hgap
    rw [List.drop_drop] at hblank
    have hsame : from' + (hd.start - from'
        - (((body.take hd.start).drop from').reverse.takeWhile isBlank).length)
        = hd.start - (((body.take hd.start).drop from').reverse.takeWhile isBlank).length := by
      omega
    rw [hsame, ← hstart] at hblank
    have hspace : ((body.take hd.start).drop span.1).all Scan.isSpace = true :=
      List.all_eq_true.2 fun b hb => isSpace_of_isBlank (List.all_eq_true.1 hblank b hb)
    have hle : span.1 ≤ hd.start := by
      rw [hstart]
      exact Nat.sub_le _ _
    obtain ⟨l, -⟩ := layout_of_slice hstands hle hspace hbounds.1 hbounds.2
    rw [slice_stop (by omega) hbounds.2]
    exact ⟨l, hd, hhd, hend⟩

/-- A group is taken only by a keyword and a name in valid UTF-8. -/
theorem isUtf8_of_extract {g : Group} (h : extract body o = .ok g) : (o.keyword.isUtf8 && o.name.isUtf8) = true := by
  cases hutf8 : o.keyword.isUtf8 && o.name.isUtf8 with
  | true => rfl
  | false =>
    rw [extract, hutf8] at h
    cases h

theorem extractBalanced_of_extract {g : Group} (hscan : o.isHeuristic = false)
    (h : extract body o = .ok g) : extractBalanced body o = .ok g := by
  unfold extract at h
  rw [hscan] at h
  split at h
  · simp at h
  · exact h

/-- Every group that is taken out of a body has a layout. -/
theorem layout_of_extract {g : Group} (h : extract body o = .ok g) : Nonempty (Layout body o g) := by
  unfold extract at h
  split at h
  · simp at h
  · split at h
    · obtain ⟨l, -⟩ := layout_of_extractHeuristic h
      exact ⟨l⟩
    · obtain ⟨l, -⟩ := layout_of_extractBalanced h
      exact ⟨l⟩

/-- Every group that is taken out of a body ends with a parenthesis or a semicolon. -/
theorem getLast?_of_extract {g : Group} (h : extract body o = .ok g) :
    ∃ b ∈ g.raw.getLast?, Scan.isCallEnd b = true := by
  unfold extract at h
  split at h
  · simp at h
  · split at h
    · obtain ⟨l, hd, -, hend⟩ := layout_of_extractHeuristic h
      refine ⟨semicolon, ?_, rfl⟩
      rw [Option.mem_def, l.getLast?_raw]
      exact closerEnd?_last hend
    · obtain ⟨l, hd, brace, -, -, -, hclose⟩ := layout_of_extractBalanced h
      obtain ⟨b, hb, hlast⟩ := Scan.closeCall?_last hclose
      refine ⟨b, ?_, hlast⟩
      rw [Option.mem_def, l.getLast?_raw]
      exact hb

end

end Spotlight.Group
