import Spotlight.Proofs.Group.Apart
import Spotlight.Proofs.Group.Parts
import Spotlight.Proofs.Scan.Arguments
import Spotlight.Proofs.Scan.Block
import Spotlight.Proofs.Text.Utf8

/-!
# The whole call of a group is taken

Where a body has one header of a group at its top level, the group that is taken is the whole call behind it, however
deep its body and its arguments nest. Without such a header there is no group, and with two of them the name is
ambiguous.

* `Group.TopAt`, `Group.HasCall`, `Group.IsCallAt` — a header at the top level, the call behind it, and its place;
* `Group.HeaderAt`, `Group.mem_allHeadersFrom_iff` — a header wherever it stands, and all of them are found;
* `Group.mem_topLevel_iff` — the headers at the top level are all found;
* `Group.extract_eq_call` — the group that is taken, and the two ways to fail.
-/

namespace Spotlight.Group

open Bytes

/-! ### Headers and calls -/

/-- The header of the group stands in code at depth zero of a body, at offset `h`, and goes on with `rest`. -/
structure TopAt (o : Options) (body : Bytes) (h : Nat) (rest : Bytes) : Prop where
  visited : ∃ v ∈ Scan.visits body 0, v.offset = h ∧ v.depth = 0
  boundary : isBoundary (body.take h).getLast? (body.drop h).head? = true
  header : HasHeader o.keyword o.name (body.drop h) rest

/-- The header of the group stands at offset `h` of a body, in code or not, and goes on with `rest`. -/
structure HeaderAt (o : Options) (body : Bytes) (h : Nat) (rest : Bytes) : Prop where
  boundary : isBoundary (body.take h).getLast? (body.drop h).head? = true
  header : HasHeader o.keyword o.name (body.drop h) rest

/-- A text goes on with a body whose braces match, its closing brace, further arguments and a closing parenthesis;
`after` is what follows. -/
inductive HasCall : (rest after : Bytes) → Prop
  | intro {t w args after : Bytes} : Scan.Code t → w.all (Scan.isGap true) = true → Scan.Trailing args →
      HasCall (t ++ rbrace :: (w ++ (args ++ rparen :: after))) after

/-- The group is the whole call with its header at offset `h` and with `after` behind its parenthesis: it starts with
all white space in front of the header, and takes the semicolon if there is one. -/
structure IsCallAt (body : Bytes) (h : Nat) (after : Bytes) (g : Group) : Prop where
  start_le : g.start ≤ h
  space : (between body g.start h).all Scan.isSpace = true
  maximal : ∀ b ∈ (body.take g.start).getLast?, Scan.isSpace b = false
  raw_eq : g.raw = between body g.start g.stop
  stop_eq : ∃ back, Scan.BehindCall after back ∧ g.stop + back.length = body.length

/-- A header ends with a brace. -/
theorem HasHeader.exists_append {keyword name s rest : Bytes} (h : HasHeader keyword name s rest) :
    ∃ x, s = x ++ lbrace :: rest := by
  cases h with
  | @intro u m tail _ q q' _ _ _ _ htail =>
    cases htail with
    | @intro v w f x _ _ _ _ _ =>
      exact ⟨keyword ++ lparen :: (u ++ q :: (m ++ q' :: (v ++ comma :: (w ++ (f ++ x))))), by simp⟩

section

variable {o : Options} {body : Bytes}

theorem HeaderAt.drop_eq {h : Nat} {rest : Bytes} (hat : HeaderAt o body h rest) :
    h + rest.length < body.length ∧ body.drop (body.length - rest.length - 1) = lbrace :: rest := by
  obtain ⟨x, hx⟩ := hat.header.exists_append
  have hlen := congrArg List.length hx
  simp only [List.length_drop, List.length_append, List.length_cons] at hlen
  refine ⟨by omega, ?_⟩
  rw [show body.length - rest.length - 1 = h + x.length by omega]
  exact drop_add_of_drop hx

theorem TopAt.headerAt {h : Nat} {rest : Bytes} (ht : TopAt o body h rest) : HeaderAt o body h rest :=
  ⟨ht.boundary, ht.header⟩

theorem TopAt.drop_eq {h : Nat} {rest : Bytes} (ht : TopAt o body h rest) :
    h + rest.length < body.length ∧ body.drop (body.length - rest.length - 1) = lbrace :: rest :=
  ht.headerAt.drop_eq

/-! ### All headers of a text -/

section

variable {keyword : Bytes} {names : NamePattern}

/-- A header that is read at some place of a text is among all of them. -/
theorem mem_allHeadersFrom {front text rest : Bytes} {before : Option UInt8} {i : Nat} {h : Header}
    (hstart : h.start = i + front.length) (hstop : h.stop + rest.length = i + (front ++ text).length)
    (hread : readHeader? keyword names (front.getLast?.or before) text = some (h.name, rest)) :
    h ∈ allHeadersFrom keyword names i before (front ++ text) := by
  induction front generalizing i before with
  | nil =>
    obtain ⟨k, mid, htext, -⟩ := exists_of_readHeader? hread
    have hlen := congrArg List.length htext
    simp only [List.length_append, List.length_cons] at hlen
    rw [List.nil_append] at hstop ⊢
    cases text with
    | nil => simp at hlen
    | cons b s =>
      rw [List.length_cons] at hlen hstop
      have hhead : h = ⟨i, i + 1 + (s.length - rest.length), h.name⟩ := by
        obtain ⟨start, stop, name⟩ := h
        simp only [List.length_nil, Header.mk.injEq, and_true] at hstart hstop ⊢
        omega
      have hfirst : readHeader? keyword names before (b :: s) = some (h.name, rest) := hread
      rw [allHeadersFrom, hfirst]
      exact hhead ▸ List.mem_cons_self
  | cons b front ih =>
    rw [getLast?_or_cons] at hread
    rw [List.length_cons] at hstart
    rw [List.cons_append, List.length_cons] at hstop
    have hmem := ih (i := i + 1) (by omega) (by omega) hread
    rw [List.cons_append, allHeadersFrom]
    split
    · exact List.mem_cons_of_mem _ hmem
    · exact hmem

/-- Headers stand in the order of their offsets, at most one at each. -/
theorem pairwise_allHeadersFrom (i : Nat) (before : Option UInt8) (s : Bytes) :
    (allHeadersFrom keyword names i before s).Pairwise fun h h' => h.start < h'.start := by
  fun_induction allHeadersFrom keyword names i before s with
  | case1 => exact .nil
  | case2 i before b s name rest hread ih =>
    refine List.pairwise_cons.2 ⟨?_, ih⟩
    intro h hmem
    obtain ⟨front, -, -, -, -, hstart, -⟩ := stands_of_mem_allHeadersFrom hmem
    show i < h.start
    omega
  | case3 i before b s hread ih => exact ih

end

/-- **All headers of a text are found,** and nothing else is. -/
theorem mem_allHeadersFrom_iff (hp : Literal.IsPlain o.keyword) {hd : Header} :
    hd ∈ allHeadersFrom o.keyword (.exactly o.name) 0 none body ↔
      ∃ rest, HeaderAt o body hd.start rest ∧ hd.stop + rest.length = body.length ∧ hd.name = o.name := by
  constructor
  · intro hmem
    obtain ⟨front, text, rest, rfl, hstart, hstop, hread⟩ := exists_of_mem_allHeadersFrom hmem
    rw [Nat.zero_add] at hstart hstop
    rw [Option.or_none] at hread
    obtain ⟨hname, hbound, hheader⟩ := (readHeader?_exactly_iff hp).1 hread
    refine ⟨rest, ⟨?_, ?_⟩, hstop, hname⟩
    · rw [hstart, List.take_left, List.drop_left]
      exact hbound
    · rw [hstart, List.drop_left]
      exact hheader
  · intro h
    obtain ⟨rest, hat, hstop, hname⟩ := h
    have hle : hd.start ≤ body.length := by
      have hlt := hat.drop_eq.1
      omega
    have hread : readHeader? o.keyword (.exactly o.name) ((body.take hd.start).getLast?.or none)
        (body.drop hd.start) = some (hd.name, rest) := by
      rw [Option.or_none]
      exact (readHeader?_exactly_iff hp).2 ⟨hname, hat.boundary, hat.header⟩
    have hmem := mem_allHeadersFrom (i := 0) (h := hd)
      (by rw [List.length_take, Nat.min_eq_left hle, Nat.zero_add])
      (by rw [List.take_append_drop, hstop, Nat.zero_add]) hread
    rwa [List.take_append_drop] at hmem

theorem HeaderAt.mem_allHeaders (hp : Literal.IsPlain o.keyword) {h : Nat} {rest : Bytes}
    (hat : HeaderAt o body h rest) :
    ⟨h, body.length - rest.length, o.name⟩ ∈ allHeadersFrom o.keyword (.exactly o.name) 0 none body := by
  have hlt := hat.drop_eq.1
  exact (mem_allHeadersFrom_iff hp).2 ⟨rest, hat, by dsimp only; omega, rfl⟩

/-- Headers in the order of their offsets that all start at one offset are one header. -/
theorem eq_singleton_of_start {l : List Header} {hd : Header} (hsorted : l.Pairwise fun a b => a.start < b.start)
    (hmem : hd ∈ l) (hstart : ∀ a ∈ l, a.start = hd.start) : l = [hd] := by
  cases l with
  | nil => exact absurd hmem List.not_mem_nil
  | cons a l =>
    cases l with
    | nil => rw [List.mem_singleton.1 hmem]
    | cons b l =>
      have hlt := (List.pairwise_cons.1 hsorted).1 b List.mem_cons_self
      have ha := hstart a List.mem_cons_self
      have hb := hstart b (List.mem_cons_of_mem a List.mem_cons_self)
      omega

/-! ### Headers at the top level -/

/-- A header is at the top level when the scanner visits its first byte at depth zero. -/
theorem topLevel_eq_filter_headers (keyword : Bytes) (names : NamePattern) (s : Bytes) :
    topLevel keyword names s = (headers keyword names s).filter fun h =>
      (Scan.visits s 0).any fun v => v.offset == h.start && v.depth == 0 := by
  unfold topLevel
  split
  · rename_i hnil
    rw [hnil]
    rfl
  · rfl

section

variable (hkey : IsKeyword o.keyword) (hfree : ¬ o.keyword ++ [lparen] <:+: o.name)
include hkey hfree

theorem headers_eq_allHeaders (s : Bytes) : headers o.keyword (.exactly o.name) s =
    allHeadersFrom o.keyword (.exactly o.name) 0 none s := by
  apply headersFrom_eq_allHeadersFrom hkey hfree
  intro u hu hlen
  have hle := hu.length_le
  omega

theorem topLevel_eq_filter_all : topLevel o.keyword (.exactly o.name) body =
    (allHeadersFrom o.keyword (.exactly o.name) 0 none body).filter fun h =>
      (Scan.visits body 0).any fun v => v.offset == h.start && v.depth == 0 := by
  rw [topLevel_eq_filter_headers, headers_eq_allHeaders hkey hfree]

/-- **The headers at the top level are all found,** and nothing else is. -/
theorem mem_topLevel_iff {hd : Header} : hd ∈ topLevel o.keyword (.exactly o.name) body ↔
    ∃ rest, TopAt o body hd.start rest ∧ hd.stop + rest.length = body.length ∧ hd.name = o.name := by
  rw [topLevel_eq_filter_all hkey hfree, List.mem_filter, List.any_eq_true, mem_allHeadersFrom_iff hkey.isPlain]
  constructor
  · intro h
    obtain ⟨⟨rest, hat, hlast⟩, v, hv, hoff⟩ := h
    rw [Bool.and_eq_true, beq_iff_eq, beq_iff_eq] at hoff
    exact ⟨rest, ⟨⟨v, hv, hoff⟩, hat.boundary, hat.header⟩, hlast⟩
  · intro h
    obtain ⟨rest, ht, hlast⟩ := h
    obtain ⟨v, hv, hoff, hdepth⟩ := ht.visited
    exact ⟨⟨rest, ht.headerAt, hlast⟩, v, hv, by simp [hoff, hdepth]⟩

theorem TopAt.mem_topLevel {h : Nat} {rest : Bytes} (ht : TopAt o body h rest) :
    ⟨h, body.length - rest.length, o.name⟩ ∈ topLevel o.keyword (.exactly o.name) body := by
  have hlt := ht.drop_eq.1
  exact (mem_topLevel_iff hkey hfree).2 ⟨rest, ht, by dsimp only; omega, rfl⟩

/-- Where one header stands at the top level only, it is the one that is found. -/
theorem topLevel_eq_singleton {h : Nat} {rest : Bytes} (ht : TopAt o body h rest)
    (honly : ∀ h' rest', TopAt o body h' rest' → h' = h) :
    topLevel o.keyword (.exactly o.name) body = [⟨h, body.length - rest.length, o.name⟩] := by
  have hmem := ht.mem_topLevel hkey hfree
  have hsorted : (topLevel o.keyword (.exactly o.name) body).Pairwise fun a b => a.start < b.start := by
    rw [topLevel_eq_filter_all hkey hfree]
    exact (pairwise_allHeadersFrom 0 none body).filter _
  refine eq_singleton_of_start hsorted hmem ?_
  intro hd hhd
  obtain ⟨rest', ht', -⟩ := (mem_topLevel_iff hkey hfree).1 hhd
  exact honly _ _ ht'

end

/-! ### The group that is taken -/

theorem only_of_two {α : Type} {l : List α} {a b : α} (ha : a ∈ l) (hb : b ∈ l) (hne : a ≠ b) :
    only o l = .error (.ambiguousGroup o.keyword o.name) := by
  match l with
  | [] => exact absurd ha List.not_mem_nil
  | [c] => exact absurd ((List.mem_singleton.1 ha).trans (List.mem_singleton.1 hb).symm) hne
  | _ :: _ :: _ => rfl

/-- The white space in front of an offset, up to the last byte that is none. -/
theorem leadingSpace_spec {h : Nat} (hle : h ≤ body.length) : Scan.leadingSpace body h ≤ h ∧
    (between body (Scan.leadingSpace body h) h).all Scan.isSpace = true ∧
      ∀ b ∈ (body.take (Scan.leadingSpace body h)).getLast?, Scan.isSpace b = false := by
  have hlen : (body.take h).length = h := by rw [List.length_take, Nat.min_eq_left hle]
  have hspace := all_drop_trailing Scan.isSpace (body.take h)
  have hmax := not_of_getLast?_trailing Scan.isSpace (body.take h)
  rw [hlen] at hspace hmax
  have hstart : Scan.leadingSpace body h ≤ h := Nat.sub_le _ _
  refine ⟨hstart, ?_, ?_⟩
  · rw [List.drop_take] at hspace
    exact hspace
  · rw [List.take_take, Nat.min_eq_left (Nat.sub_le _ _)] at hmax
    exact hmax

/-- Behind the brace of a header the end of the body is found, and behind that the end of the call. -/
theorem HasCall.exists_end {i : Nat} {rest after back : Bytes} (hcall : HasCall rest after)
    (hdrop : body.drop i = lbrace :: rest) (hback : Scan.BehindCall after back) :
    ∃ brace stop, Scan.matchBrace? body i = some brace ∧ Scan.closeCall? body brace = some stop ∧
      stop + back.length = body.length := by
  cases hcall with
  | @intro t w args _ hcode hw hargs =>
    have hblock : body.drop i = (lbrace :: t ++ [rbrace]) ++ (w ++ (args ++ rparen :: after)) := by
      rw [hdrop]
      simp
    have hlen : (lbrace :: t ++ [rbrace]).length = t.length + 2 := by simp
    have htail := drop_add_of_drop hblock
    rw [hlen] at htail
    obtain ⟨stop, hstop, hend⟩ := Scan.exists_closeCall? hw hargs htail hback
    exact ⟨_, stop, Scan.matchBrace?_of_code hcode hdrop, hstop, hend⟩

/-- The group behind the only header at the top level ends where the rules have the end of its call. -/
theorem exists_extractBalanced {h : Nat} {rest after : Bytes} (ht : TopAt o body h rest)
    (hone : topLevel o.keyword (.exactly o.name) body = [⟨h, body.length - rest.length, o.name⟩])
    (hcall : HasCall rest after) :
    ∃ g, extractBalanced body o = .ok g ∧ g.name = o.name ∧ IsCallAt body h after g := by
  obtain ⟨hlt, hdrop⟩ := ht.drop_eq
  obtain ⟨back, hback⟩ := Scan.exists_behindCall after
  obtain ⟨brace, stop, hbrace, hstop, hend⟩ := hcall.exists_end hdrop hback
  have hin : h ≤ body.length := by omega
  obtain ⟨hle, hspace, hmax⟩ := leadingSpace_spec hin
  have hmatch := Scan.matchBrace?_bounds hbrace
  have hclose := Scan.closeCall?_bounds hstop
  have hgroup : (slice o.name body (Scan.leadingSpace body h) stop).stop = stop :=
    slice_stop (by omega) hclose.2
  refine ⟨slice o.name body (Scan.leadingSpace body h) stop, ?_, rfl, hle, hspace, hmax, ?_, back, hback, ?_⟩
  · simp only [extractBalanced, hone, only, bind, Except.bind, hbrace, hstop]
  · rw [hgroup]
    rfl
  · rw [hgroup]
    exact hend

/-- **The whole call of a group is taken** where one header of it stands at the top level of the body, with all white
space in front and the semicolon behind. Without a header there is no group to take, and with two it is ambiguous. -/
theorem extract_eq_call (hscan : o.isHeuristic = false) (hkey : IsKeyword o.keyword) (hname : o.name.isUtf8 = true)
    (hfree : ¬ o.keyword ++ [lparen] <:+: o.name) (body : Bytes) :
    ((∀ h rest, ¬ TopAt o body h rest) → extract body o = .error (.groupNotFound o.keyword o.name)) ∧
      (∀ h h' rest rest', TopAt o body h rest → TopAt o body h' rest' → h ≠ h' →
        extract body o = .error (.ambiguousGroup o.keyword o.name)) ∧
      ∀ h rest after, TopAt o body h rest → (∀ h' rest', TopAt o body h' rest' → h' = h) → HasCall rest after →
        ∃ g, extract body o = .ok g ∧ g.name = o.name ∧ IsCallAt body h after g := by
  have hextract : extract body o = extractBalanced body o := by
    rw [extract, isUtf8_of_ascii hkey.ascii, hname, hscan]
    rfl
  rw [hextract]
  refine ⟨?_, ?_, ?_⟩
  · intro hnone
    have hnil : topLevel o.keyword (.exactly o.name) body = [] := by
      apply List.eq_nil_iff_forall_not_mem.2
      intro hd hmem
      obtain ⟨rest, ht, -⟩ := (mem_topLevel_iff hkey hfree).1 hmem
      exact hnone _ rest ht
    rw [extractBalanced, hnil]
    rfl
  · intro h h' rest rest' ht ht' hne
    have htwo := only_of_two (o := o) (ht.mem_topLevel hkey hfree) (ht'.mem_topLevel hkey hfree) fun heq =>
      hne (congrArg Header.start heq)
    rw [extractBalanced, htwo]
    rfl
  · intro h rest after ht honly hcall
    exact exists_extractBalanced ht (topLevel_eq_singleton hkey hfree ht honly) hcall

end

/-- A call with an object, an array and a semicolon among its arguments. Other headers stand in a comment and in
braces in front of it, the body holds braces in a string and in a template, and white space stands in front of the
call and in front of its semicolon. Without that call there is no group, and twice it is ambiguous. -/
theorem extract_eq_call_arguments :
    let o : Options := { keyword := "d.x", name := "a" }
    let front : Bytes := "/* d.x('a', () => \x7b\x7d) */ \x7bd.x('a', () => \x7b\x7d)\x7d"
    let call : Bytes :=
      "\n \td.x(\"a\", async () => \x7b it('\x7d', `\x7b`); \x7d\n, \x7b t: [2, \")\"], f() \x7b g(1); \x7d \x7d )\t;"
    o.isHeuristic = false ∧ IsKeyword o.keyword ∧ o.name.isUtf8 = true ∧ ¬ o.keyword ++ [lparen] <:+: o.name ∧
      (∀ h rest, ¬ TopAt o front h rest) ∧ extract front o = .error (.groupNotFound "d.x" "a") ∧
      (∃ h h' rest rest', TopAt o (call ++ call) h rest ∧ TopAt o (call ++ call) h' rest' ∧ h ≠ h') ∧
      extract (call ++ call) o = .error (.ambiguousGroup "d.x" "a") ∧
      ∃ rest after, TopAt o (front ++ call) 48 rest ∧ HasCall rest after ∧
        ∃ g, extract (front ++ call) o = .ok g ∧ g.name = "a" ∧ IsCallAt (front ++ call) 48 after g := by
  intro o front call
  have hscan : o.isHeuristic = false := rfl
  have hkey : IsKeyword o.keyword := by decide
  have hname : o.name.isUtf8 = true := by decide
  have hfree : ¬ o.keyword ++ [lparen] <:+: o.name := by decide
  have hnone : ∀ h rest, ¬ TopAt o front h rest := by
    intro h rest ht
    have hmem := ht.mem_topLevel hkey hfree
    rw [show topLevel o.keyword (.exactly o.name) front = [] by decide +kernel] at hmem
    cases hmem
  have htwo : topLevel o.keyword (.exactly o.name) (call ++ call) = [⟨3, 25, "a"⟩, ⟨81, 103, "a"⟩] := by
    decide +kernel
  have hone : topLevel o.keyword (.exactly o.name) (front ++ call) = [⟨48, 70, "a"⟩] := by decide +kernel
  have hread : ∀ {body : Bytes} {hd : Header}, hd ∈ topLevel o.keyword (.exactly o.name) body →
      ∃ rest, TopAt o body hd.start rest ∧ hd.stop + rest.length = body.length := by
    intro body hd hmem
    obtain ⟨rest, ht, hlen, -⟩ := (mem_topLevel_iff hkey hfree).1 hmem
    exact ⟨rest, ht, hlen⟩
  obtain ⟨rest, ht, -⟩ := hread (htwo ▸ List.mem_cons_self)
  obtain ⟨rest', ht', -⟩ := hread (htwo ▸ List.mem_cons_of_mem _ List.mem_cons_self)
  obtain ⟨tail, hlast, hlen⟩ := hread (hone ▸ List.mem_cons_self)
  have hlone : ∀ h' rest', TopAt o (front ++ call) h' rest' → h' = 48 := by
    intro h' rest' ht
    have hmem := ht.mem_topLevel hkey hfree
    rw [hone] at hmem
    exact congrArg Header.start (List.mem_singleton.1 hmem)
  have hcode : Scan.Code (Bytes.ofString " it(" ++ (apostrophe :: ([rbrace] ++ [apostrophe]) ++ (Bytes.ofString ", " ++
      (grave :: ([lbrace] ++ [grave]) ++ (Bytes.ofString "); " ++ []))))) :=
    .inert_append (by decide) (.atom (.string (Or.inl rfl) (.byte (by decide) (by decide) (by decide) .nil) (Or.inl rfl))
      (.inert_append (by decide) (.atom (.template (.byte (by decide) (by decide) (by decide) .nil))
        (.inert_append (by decide) .nil))))
  have hblock : Scan.Nested true (Bytes.ofString " g" ++ lparen :: (Bytes.ofString "1" ++ [] ++ rparen ::
      (Bytes.ofString "; " ++ []))) :=
    .inert_append (by decide) (by decide) (.pair (Or.inl ⟨rfl, rfl⟩) (.inert_append (by decide) (by decide) .nil)
      (.inert_append (by decide) (by decide) .nil))
  have harray : Scan.Nested true (Bytes.ofString "2, " ++ (quote :: ([rparen] ++ [quote]) ++ [])) :=
    .inert_append (by decide) (by decide)
      (.atom (.string (Or.inr rfl) (.byte (by decide) (by decide) (by decide) .nil) (Or.inl rfl)) .nil)
  have hobject : Scan.Nested true (Bytes.ofString " t: " ++ lbracket :: (Bytes.ofString "2, " ++
      (quote :: ([rparen] ++ [quote]) ++ []) ++ rbracket :: (Bytes.ofString ", f" ++ lparen :: ([] ++ rparen ::
        (Bytes.ofString " " ++ lbrace :: (Bytes.ofString " g" ++ lparen :: (Bytes.ofString "1" ++ [] ++ rparen ::
          (Bytes.ofString "; " ++ [])) ++ rbrace :: (Bytes.ofString " " ++ []))))))) :=
    .inert_append (by decide) (by decide) (.pair (Or.inr ⟨rfl, rfl⟩) harray (.inert_append (by decide) (by decide)
      (.pair (Or.inl ⟨rfl, rfl⟩) .nil (.inert_append (by decide) (by decide)
        (.braces hblock (.inert_append (by decide) (by decide) .nil))))))
  have hnested : Scan.Nested false (Bytes.ofString " " ++ lbrace :: (_ ++ rbrace :: (Bytes.ofString " " ++ []))) :=
    .inert_append (by decide) (by decide) (.braces hobject (.inert_append (by decide) (by decide) .nil))
  have hcall : HasCall tail "\t;" := by
    have hdrop := hlast.drop_eq.2
    have hopen : 70 + tail.length = (front ++ call).length := hlen
    rw [show (front ++ call).length - tail.length - 1 = 69 by omega] at hdrop
    have htail := (List.cons.inj (hdrop.symm.trans (by rfl))).2
    rw [htail]
    exact .intro hcode (w := "\n") (by decide) (Or.inr ⟨_, rfl, hnested⟩)
  obtain ⟨hmissing, -, -⟩ := extract_eq_call hscan hkey hname hfree front
  obtain ⟨-, hagain, -⟩ := extract_eq_call hscan hkey hname hfree (call ++ call)
  obtain ⟨-, -, htaken⟩ := extract_eq_call hscan hkey hname hfree (front ++ call)
  exact ⟨hscan, hkey, hname, hfree, hnone, hmissing hnone, ⟨3, 81, rest, rest', ht, ht', by decide⟩,
    hagain 3 81 rest rest' ht ht' (by decide), tail, "\t;", hlast, hcall, htaken 48 tail _ hlast hlone hcall⟩

end Spotlight.Group
