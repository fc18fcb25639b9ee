import Spotlight.Proofs.Activation.Basic
import Spotlight.Proofs.Group.Parts

/-!
# An activation takes one name off the list

What an activation leaves disabled is listed anew, from the body with the group and the white space in
front of it cut out. The text in front of the group and the text behind it then stand side by side, and
where a comment, a word or a header goes over that seam, groups get lost or come up.

* `Group.Seamless` — a group can be cut out of a body without a trace;
* `Group.names_of_seamless` — what is left then has the names of the body, but for that of the group;
* `Activation.disabled_of_run` — so the groups that stay disabled are those of the list but the activated
  one;
* `Activation.comment_swallows_neighbour` — without the condition, a comment in front of the group takes
  in the group behind it.
-/

namespace Spotlight

open Bytes

namespace Group

/-! ### The header of a group -/

/-- The keyword is an identifier: of ASCII it has letters, digits, underscores and dollar signs only, and
U+FFFD is no part of an identifier. -/
structure IsIdentifier (keyword : Bytes) : Prop where
  plain : Literal.IsPlain keyword
  ascii : ∀ b ∈ keyword, b < 0x80 → isWord b = true ∨ b = dollar

/-- The name is free of quotes, backslashes and line breaks. -/
def IsBare (name : Bytes) : Prop :=
  ∀ b ∈ name, Scan.isDelimiter b = false ∧ b ≠ backslash ∧ b ≠ lf ∧ b ≠ cr

instance (name : Bytes) : Decidable (IsBare name) :=
  inferInstanceAs (Decidable (∀ b ∈ name, Scan.isDelimiter b = false ∧ b ≠ backslash ∧ b ≠ lf ∧ b ≠ cr))

/-- The header of the group has its name between two quotes that are the same. -/
def SameQuotes (o : Options) (g : Group) : Prop :=
  ∃ q blanks rest, Scan.isDelimiter q = true ∧ blanks.all isBlank = true ∧
    Blank.trimStart g.raw = o.keyword ++ lparen :: (blanks ++ q :: (o.name ++ q :: rest))

theorem IsIdentifier.inert {keyword : Bytes} (h : IsIdentifier keyword) :
    keyword.all Scan.isInert = true := by
  rw [List.all_eq_true]
  intro b hb
  by_cases hascii : b < 0x80
  · rcases h.ascii b hb hascii with hword | rfl
    · exact Scan.inert_of_isWord hword
    · rfl
  · have hne : ∀ c : UInt8, c < 0x80 → b ≠ c := by
      rintro c hc rfl
      exact hascii hc
    simp only [Scan.isInert, Scan.isDelimiter, bne, beq_false_of_ne (hne slash (by decide)),
      beq_false_of_ne (hne apostrophe (by decide)), beq_false_of_ne (hne quote (by decide)),
      beq_false_of_ne (hne grave (by decide)), beq_false_of_ne (hne lbrace (by decide)),
      beq_false_of_ne (hne rbrace (by decide))]
    rfl

theorem IsBare.endsName {name : Bytes} (h : IsBare name) {q : UInt8} (hq : Scan.isDelimiter q = true) :
    ∀ b ∈ name, endsName q b = false := by
  intro b hb
  obtain ⟨hdelim, -, hlf, -⟩ := h b hb
  have hne : b ≠ q := by
    rintro rfl
    rw [hq] at hdelim
    exact absurd hdelim (by decide)
  simp [Group.endsName, hne, hlf]

/-- Within a string the scanner passes a bare name, unless a substitution opens in it. -/
theorem run_name {q : UInt8} (hq : Scan.isDelimiter q = true) {s : Scan.State} (hs : s.mode = .string q)
    {name : Bytes} (hname : IsBare name) (hsub : ¬ [dollar, lbrace] <:+: name) :
    s.run name (some q) = s := by
  induction name with
  | nil => rfl
  | cons b name ih =>
    obtain ⟨hdelim, hback, hlf, -⟩ := hname b List.mem_cons_self
    have hne : b ≠ q := by
      rintro rfl
      rw [hq] at hdelim
      exact absurd hdelim (by decide)
    have hopen : (b == dollar && q == grave && name.head?.or (some q) == some lbrace) = false := by
      rw [← Bool.not_eq_true]
      intro hall
      simp only [Bool.and_eq_true, beq_iff_eq] at hall
      obtain ⟨⟨rfl, rfl⟩, hnext⟩ := hall
      cases name with
      | nil => exact absurd hnext (by decide)
      | cons c name =>
        obtain rfl : c = lbrace := Option.some.inj hnext
        exact hsub ⟨[], name, rfl⟩
    have hstep : s.step b (name.head?.or (some q)) = s := by
      simp only [Scan.State.step, hs, Scan.State.stepString, beq_false_of_ne hback, beq_false_of_ne hne,
        beq_false_of_ne hlf, hopen, Bool.false_and, Bool.false_eq_true, if_false]
    rw [Scan.State.run_cons, hstep]
    exact ih (fun c hc => hname c (List.mem_cons_of_mem b hc))
      fun hin => hsub (hin.trans (List.suffix_cons b name).isInfix)

/-- From code the scanner comes to the brace of a header in code. -/
theorem run_header {keyword blanks name argument : Bytes} {q : UInt8} (hkeyword : IsIdentifier keyword)
    (hblanks : blanks.all isBlank = true) (hq : Scan.isDelimiter q = true) (hname : IsBare name)
    (hsub : ¬ [dollar, lbrace] <:+: name) (hargument : argument.all Scan.isInert = true)
    (next : Option UInt8) :
    Scan.State.start.run (keyword ++ lparen :: (blanks ++ q :: (name ++ q :: argument))) next =
      Scan.State.start := by
  have hopen : (keyword ++ lparen :: blanks).all Scan.isInert = true := by
    rw [List.all_append, List.all_cons, hkeyword.inert, Bool.true_and, Bool.and_eq_true]
    refine ⟨rfl, List.all_eq_true.2 ?_⟩
    intro b hb
    exact inert_of_blank (List.all_eq_true.1 hblanks b hb)
  have hquote : ∀ n, Scan.State.start.step q n = { mode := .string q } := by
    intro n
    simp only [Scan.isDelimiter, Bool.or_eq_true, beq_iff_eq] at hq
    rcases hq with (rfl | rfl) | rfl <;> rfl
  have hback : ∀ n, (Scan.State.mk (.string q) 0 []).step q n = Scan.State.start := by
    intro n
    simp only [Scan.isDelimiter, Bool.or_eq_true, beq_iff_eq] at hq
    rcases hq with (rfl | rfl) | rfl <;> rfl
  have hsplit : keyword ++ lparen :: (blanks ++ q :: (name ++ q :: argument)) =
      (keyword ++ lparen :: blanks) ++ q :: (name ++ q :: argument) := by
    rw [List.append_assoc, List.cons_append]
  rw [hsplit, Scan.State.run_append, Scan.State.run_inert rfl hopen, Scan.State.run_cons, hquote,
    Scan.State.run_append, List.head?_cons, Option.some_or, run_name hq rfl hname hsub,
    Scan.State.run_cons, hback, Scan.State.run_inert rfl hargument]

/-- Where the scanner comes to a header in code, it comes to the brace of that header in code. -/
theorem stateAt_headerText {keyword blanks name argument body front rest : Bytes} {q : UInt8}
    (hkeyword : IsIdentifier keyword) (hblanks : blanks.all isBlank = true)
    (hq : Scan.isDelimiter q = true) (hname : IsBare name) (hsub : ¬ [dollar, lbrace] <:+: name)
    (hargument : argument.all Scan.isInert = true)
    (hbody : body = front ++ (headerText keyword blanks q name argument ++ rest))
    (hstate : Scan.stateAt body front.length = Scan.State.start) :
    Scan.stateAt body (front.length + (headerText keyword blanks q name argument).length - 1) =
      Scan.State.start := by
  let opened := keyword ++ lparen :: (blanks ++ q :: (name ++ q :: argument))
  have htext : headerText keyword blanks q name argument = opened ++ [lbrace] := by
    simp only [headerText, opened, List.append_assoc, List.cons_append]
  have hplace : front.length + (headerText keyword blanks q name argument).length - 1 =
      front.length + opened.length := by
    rw [htext, List.length_append, List.length_singleton]
    rfl
  have hdrop : body.drop front.length = opened ++ lbrace :: rest := by
    rw [hbody, List.drop_left, htext, List.append_assoc]
    rfl
  rw [hplace, Scan.stateAt_add, hstate, hdrop, List.take_left, List.drop_left]
  exact run_header hkeyword hblanks hq hname hsub hargument _

/-- The header of a group, cut into its parts. The search for all names reads it whatever follows. -/
theorem exists_headerText {body : Bytes} {o : Options} {g : Group} (l : Layout body o g) {hd : Header}
    (hp : Literal.IsPlain o.keyword) (hword : o.keyword.head?.any isWord = true) (hname : IsBare o.name)
    (hquotes : SameQuotes o g) (hmem : hd ∈ headers o.keyword (.exactly o.name) body)
    (hlen : l.front.length + l.gap.length = hd.start) :
    ∃ blanks q argument tail, blanks.all isBlank = true ∧ Scan.isDelimiter q = true ∧
      argument.all Scan.isInert = true ∧
      body = (l.front ++ l.gap) ++ (headerText o.keyword blanks q o.name argument ++ tail) ∧
      hd.stop = (l.front ++ l.gap).length + (headerText o.keyword blanks q o.name argument).length ∧
      ∀ rest, readHeader? o.keyword .any (l.front ++ l.gap).getLast?
        (headerText o.keyword blanks q o.name argument ++ rest) = some (o.name, rest) := by
  obtain ⟨q, blanks, tail, hq, hblanks, htrim⟩ := hquotes
  have hraw : g.raw = l.gap ++ (o.keyword ++ lparen :: (blanks ++ q :: (o.name ++ q :: tail))) := by
    rw [l.raw_eq, ← l.trimStart_raw hword, htrim]
  have hbody : body = (l.front ++ l.gap) ++
      (o.keyword ++ lparen :: (blanks ++ q :: (o.name ++ q :: (tail ++ l.back)))) := by
    refine l.body_eq.trans ?_
    rw [hraw]
    simp only [List.append_assoc, List.cons_append]
  -- the header that was found stands behind the white space
  obtain ⟨front, text, rest, hcut, hfront, hend, hread⟩ := exists_of_mem_headersFrom hmem
  obtain ⟨rfl, rfl⟩ := List.append_inj (hbody.symm.trans hcut) (by
    rw [List.length_append, hlen, hfront, Nat.zero_add])
  rw [Option.or_none] at hread
  obtain ⟨w, q', argument, htext, hw, hq', -, hargument, hlocal⟩ :=
    exists_of_readAny? hp (readAny_of_readExactly hp hblanks hq (hname.endsName hq) hread)
  refine ⟨w, q', argument, rest, hw, hq', hargument, ?_, ?_, hlocal⟩
  · rw [← htext]
    exact hcut
  · have hsum := congrArg List.length hcut
    rw [htext] at hsum
    simp only [List.length_append] at hsum ⊢
    omega

/-! ### A group cut out of its body -/

/-- The offset of the first byte behind the seam that is no white space. -/
def resumption (body : Bytes) (g : Group) : Nat :=
  g.start + ((body.drop g.stop).takeWhile Scan.isSpace).length

/-- The group can be cut out of the body without a trace. No header of the body goes over one of its
edges, its text has no second group at the top level and its name no substitution. In what is left no
header and no word goes over the seam, and the scanner goes on behind it in code. -/
structure Seamless (o : Options) (body : Bytes) (g : Group) : Prop where
  start : PartsAt o.keyword body g.start
  stop : PartsAt o.keyword body g.stop
  single : (names o.keyword g.raw).length ≤ 1
  name : ¬ [dollar, lbrace] <:+: o.name
  seam : PartsAt o.keyword (remainder body g) g.start
  apart : (body.drop g.stop).head?.any isWord = true → (body.take g.start).getLast?.any isWord = false
  code : resumption body g < (remainder body g).length →
    Scan.stateAt (remainder body g) (resumption body g) = Scan.State.start

/-- Where a group of the body has its header, and how the search for all names reads it. The scanner is
in code in front of the header and behind the group. -/
theorem exists_header {body : Bytes} {o : Options} {g : Group} (hextract : extractBalanced body o = .ok g)
    (hkeyword : IsIdentifier o.keyword) (hword : o.keyword.head?.any isWord = true)
    (hname : IsBare o.name) (hsub : ¬ [dollar, lbrace] <:+: o.name) (hquotes : SameQuotes o g) :
    ∃ (l : Layout body o g) (block rest : Bytes), g.raw = l.gap ++ block ∧
      readHeader? o.keyword .any (l.front ++ l.gap).getLast? block = some (o.name, rest) ∧
      Scan.stateAt body (l.front ++ l.gap).length = Scan.State.start ∧
      Scan.stateAt body g.stop = Scan.State.start ∧
      ∃ b ∈ g.raw.getLast?, Scan.isCallEnd b = true := by
  obtain ⟨l, hd, brace, htop, hlen, hmatch, hclose⟩ := layout_of_extractBalanced hextract
  have hmem : hd ∈ topLevel o.keyword (.exactly o.name) body := by
    rw [htop]
    exact List.mem_cons_self
  rw [topLevel_eq_filter hkeyword.plain hword, List.mem_filter, decide_eq_true_eq] at hmem
  obtain ⟨hmem, hstate⟩ := hmem
  obtain ⟨blanks, q, argument, tail, hblanks, hq, hargument, hbody, hend, hread⟩ :=
    exists_headerText l hkeyword.plain hword hname hquotes hmem hlen
  -- the scanner from the header to its brace, and from there to the end of the group
  have hcode : Scan.stateAt body (l.front ++ l.gap).length = Scan.State.start := by
    rw [List.length_append, hlen]
    exact hstate
  have hbrace : Scan.stateAt body (hd.stop - 1) = Scan.State.start := by
    rw [hend]
    exact stateAt_headerText hkeyword hblanks hq hname hsub hargument hbody hcode
  have hafter : Scan.stateAt body g.stop = Scan.State.start :=
    Scan.stateAt_closeCall? (Scan.stateAt_matchBrace? hbrace hmatch) hclose
  -- the header ends within the group
  have hsame : (l.front ++ l.gap) ++ ((l.keyword ++ lparen :: l.rest) ++ l.back) =
      (l.front ++ l.gap) ++ (headerText o.keyword blanks q o.name argument ++ tail) := by
    refine Eq.trans ?_ (l.body_eq.symm.trans hbody)
    rw [l.raw_eq]
    simp only [List.append_assoc]
  have hwithin : (headerText o.keyword blanks q o.name argument).length ≤
      (l.keyword ++ lparen :: l.rest).length := by
    have hopened := (Scan.matchBrace?_bounds hmatch).1
    have hclosed := (Scan.closeCall?_bounds hclose).1
    have hstop := l.stop_eq
    rw [l.raw_eq] at hstop
    simp only [List.length_append] at hstop hend ⊢
    omega
  obtain ⟨rest, hrest, -⟩ := exists_of_append_eq (List.append_cancel_left hsame) hwithin
  obtain ⟨b, hb, hlast⟩ := Scan.closeCall?_last hclose
  refine ⟨l, l.keyword ++ lparen :: l.rest, rest, l.raw_eq, ?_, hcode, hafter, b, ?_, hlast⟩
  · rw [hrest]
    exact hread rest
  · rw [Option.mem_def, l.getLast?_raw]
    exact hb

theorem not_isWord_of_space {w : Bytes} (hw : w.all Scan.isSpace = true) :
    w.getLast?.any isWord = false ∧ w.head?.any isWord = false := by
  have hnone : ∀ b ∈ w, isWord b = false :=
    fun b hb => Scan.not_isWord_of_isSpace (List.all_eq_true.1 hw b hb)
  constructor
  · cases hlast : w.getLast? with
    | none => rfl
    | some b => exact hnone b (List.mem_of_getLast? hlast)
  · cases w with
    | nil => rfl
    | cons b w => exact hnone b List.mem_cons_self

theorem not_isWord_of_isCallEnd {b : UInt8} (h : Scan.isCallEnd b = true) : isWord b = false := by
  simp only [Scan.isCallEnd, Bool.or_eq_true, beq_iff_eq] at h
  rcases h with rfl | rfl <;> rfl

/-- A header behind white space is the first one of its text. -/
theorem mem_names {keyword : Bytes} (hp : Literal.IsPlain keyword)
    (hword : keyword.head?.any isWord = true) {gap block name rest : Bytes}
    (hgap : gap.all Scan.isSpace = true)
    (hread : readHeader? keyword .any gap.getLast? block = some (name, rest)) :
    name ∈ names keyword (gap ++ block) := by
  obtain ⟨b, t, rfl, hb⟩ := head?_of_readHeader? hp hword hread
  have hinert : gap.all Scan.isInert = true := Scan.all_inert_of_isSpace hgap
  have hstate : Scan.stateAt (gap ++ b :: t) gap.length = Scan.State.start := by
    rw [Scan.stateAt_append, Scan.State.run_inert rfl hinert]
  have hheaders : headers keyword .any (gap ++ b :: t) =
      ⟨gap.length, gap.length + 1 + (t.length - rest.length), name⟩ ::
        headersFrom keyword .any (t.length - rest.length) (gap.length + 1) (some b) t := by
    rw [headers, headersFrom_space hp hword hgap, Nat.zero_add, Option.or_none, headersFrom, hread]
  rw [names, topLevel_eq_filter hp hword, hheaders]
  exact List.mem_map.2 ⟨_, List.mem_filter.2 ⟨List.mem_cons_self, decide_eq_true hstate⟩, rfl⟩

/-- A group that is alone at its top level has its own name only. -/
theorem names_group {keyword : Bytes} (hp : Literal.IsPlain keyword)
    (hword : keyword.head?.any isWord = true) {gap block name rest : Bytes} {before : Option UInt8}
    (hgap : gap.all Scan.isSpace = true) (hsingle : (names keyword (gap ++ block)).length ≤ 1)
    (hbefore : before.any isWord = false)
    (hread : readHeader? keyword .any before block = some (name, rest)) :
    names keyword (gap ++ block) = [name] := by
  have hmem : name ∈ names keyword (gap ++ block) := by
    have hread' : readHeader? keyword .any gap.getLast? block = some (name, rest) := by
      rw [← hread]
      apply readHeader?_before hp hword
      intro _
      rw [hbefore, (not_isWord_of_space hgap).1]
    exact mem_names hp hword hgap hread'
  match hnames : names keyword (gap ++ block) with
  | [] => simp [hnames] at hmem
  | [n] =>
    rw [hnames, List.mem_singleton] at hmem
    rw [hmem]
  | n :: n' :: more => simp [hnames] at hsingle

/-- A group has the same names in its body as alone, when the scanner arrives at its header in code. -/
theorem namesBehind_group {keyword : Bytes} (hp : Literal.IsPlain keyword)
    (hword : keyword.head?.any isWord = true) {front gap block : Bytes}
    (hgap : gap.all Scan.isSpace = true) (hbefore : (front ++ gap).getLast?.any isWord = false)
    (hstate : Scan.stateAt (front ++ (gap ++ block)) (front.length + gap.length) = Scan.State.start) :
    namesBehind keyword front (gap ++ block) = names keyword (gap ++ block) := by
  have hparts : PartsAt keyword ([] ++ (gap ++ block)) ([] : Bytes).length :=
    fun h _ hlt => absurd hlt (Nat.not_lt_zero _)
  have halone : names keyword (gap ++ block) = namesBehind keyword [] (gap ++ block) :=
    names_append hp hword hparts
  rw [halone]
  apply namesBehind_congr hp hword hgap
  · intro hhead
    cases gap with
    | nil =>
      rw [List.append_nil] at hbefore
      rw [hbefore]
      rfl
    | cons d gap =>
      have hd : isWord d = false := (not_isWord_of_space hgap).2
      rw [List.cons_append, List.head?_cons, Option.any_some, hd] at hhead
      exact absurd hhead (by decide)
  · intro _
    have hinert : gap.all Scan.isInert = true := Scan.all_inert_of_isSpace hgap
    have hown : Scan.stateAt (([] : Bytes) ++ (gap ++ block)) (([] : Bytes).length + gap.length) =
        Scan.State.start := Scan.stateAt_add_inert rfl hinert (Nat.le_refl _)
    rw [hstate, hown]

/-- What stands behind a seam has the same names as behind the text that was there, when the scanner comes
out of both in code. -/
theorem namesBehind_seam {keyword : Bytes} (hp : Literal.IsPlain keyword)
    (hword : keyword.head?.any isWord = true) {x x' back : Bytes}
    (hbefore : x.getLast?.any isWord = false)
    (hapart : back.head?.any isWord = true → x'.getLast?.any isWord = false)
    (hstate : Scan.stateAt (x ++ back) x.length = Scan.State.start)
    (hcode : x'.length + (back.takeWhile Scan.isSpace).length < (x' ++ back).length →
      Scan.stateAt (x' ++ back) (x'.length + (back.takeWhile Scan.isSpace).length) = Scan.State.start) :
    namesBehind keyword x back = namesBehind keyword x' back := by
  have hcut : back = back.takeWhile Scan.isSpace ++ back.dropWhile Scan.isSpace :=
    List.takeWhile_append_dropWhile.symm
  have hspace : (back.takeWhile Scan.isSpace).all Scan.isSpace = true := List.all_takeWhile
  generalize back.takeWhile Scan.isSpace = w at *
  generalize back.dropWhile Scan.isSpace = t at *
  subst hcut
  apply namesBehind_congr hp hword hspace
  · intro hhead
    rw [hapart hhead, hbefore]
  · intro hne
    have hinert : w.all Scan.isInert = true := Scan.all_inert_of_isSpace hspace
    have hpos := List.length_pos_iff.2 hne
    rw [Scan.stateAt_add_inert hstate hinert (Nat.le_refl _), hcode]
    simp only [List.length_append]
    omega

/-- In its body, a group that is alone at its top level has its own name only. -/
theorem Layout.namesBehind_raw {body : Bytes} {o : Options} {g : Group} (l : Layout body o g)
    (hp : Literal.IsPlain o.keyword) (hword : o.keyword.head?.any isWord = true) {block rest : Bytes}
    (hraw : g.raw = l.gap ++ block) (hsingle : (names o.keyword g.raw).length ≤ 1)
    (hread : readHeader? o.keyword .any (l.front ++ l.gap).getLast? block = some (o.name, rest))
    (hcode : Scan.stateAt body (l.front ++ l.gap).length = Scan.State.start) :
    namesBehind o.keyword l.front g.raw = [o.name] := by
  -- a word boundary stands in front of the header
  obtain ⟨c, t, hblock, hc⟩ := head?_of_readHeader? hp hword hread
  have hboundary : (l.front ++ l.gap).getLast?.any isWord = false := by
    have hbound := (readHeader?_eq_some_iff.1 hread).1
    rw [hblock, List.head?_cons, isBoundary, Option.any_some, hc] at hbound
    simpa using hbound
  have hin : (l.front ++ l.gap).length < (l.front ++ (l.gap ++ block)).length := by
    rw [hblock]
    simp only [List.length_append, List.length_cons]
    omega
  have hstate : Scan.stateAt (l.front ++ (l.gap ++ block)) (l.front.length + l.gap.length) =
      Scan.State.start := by
    rw [← List.length_append, ← Scan.stateAt_left hin l.back, ← hraw, ← l.body_split]
    exact hcode
  rw [hraw] at hsingle ⊢
  rw [namesBehind_group hp hword l.gap_space hboundary hstate]
  exact names_group hp hword l.gap_space hsingle hboundary hread

/-- Behind a seam without a trace stand the names that stood behind the group. -/
theorem Seamless.namesBehind_back {body : Bytes} {o : Options} {g : Group} (hs : Seamless o body g)
    (l : Layout body o g) (hp : Literal.IsPlain o.keyword) (hword : o.keyword.head?.any isWord = true)
    (hafter : Scan.stateAt body g.stop = Scan.State.start)
    (hend : ∃ b ∈ g.raw.getLast?, Scan.isCallEnd b = true) :
    namesBehind o.keyword (l.front ++ g.raw) l.back = namesBehind o.keyword l.front l.back := by
  have hlast : (l.front ++ g.raw).getLast?.any isWord = false := by
    obtain ⟨b, hb, hcall⟩ := hend
    rw [List.getLast?_append, hb]
    exact not_isWord_of_isCallEnd hcall
  have hapart := hs.apart
  rw [l.drop_stop, l.take_start] at hapart
  have hcode := hs.code
  rw [l.remainder_eq, resumption, l.drop_stop, l.start_eq] at hcode
  apply namesBehind_seam hp hword hlast hapart _ hcode
  rw [← l.body_split, ← l.stop_eq]
  exact hafter

/-- **What is left has the names of the body, but for that of the group.** -/
theorem names_of_seamless {body : Bytes} {o : Options} {g : Group}
    (hextract : extractBalanced body o = .ok g) (hkeyword : IsIdentifier o.keyword)
    (hword : o.keyword.head?.any isWord = true) (hname : IsBare o.name) (hquotes : SameQuotes o g)
    (hs : Seamless o body g) :
    ∃ pre post, names o.keyword body = pre ++ [o.name] ++ post ∧
      names o.keyword (remainder body g) = pre ++ post := by
  have hp := hkeyword.plain
  obtain ⟨l, block, rest, hraw, hread, hcode, hafter, hend⟩ :=
    exists_header hextract hkeyword hword hname hs.name hquotes
  -- the cuts at both ends of the group, and the one in what is left
  have hstop : PartsAt o.keyword ((l.front ++ g.raw) ++ l.back) (l.front ++ g.raw).length := by
    rw [← l.body_split, ← l.stop_eq]
    exact hs.stop
  have hstart : PartsAt o.keyword (l.front ++ g.raw) l.front.length := by
    intro h hmem
    rw [← l.start_eq]
    apply hs.start h
    rw [l.body_split, headers_append hp hstop]
    exact List.mem_append_left _ hmem
  have hseam : PartsAt o.keyword (l.front ++ l.back) l.front.length := by
    rw [← l.remainder_eq, ← l.start_eq]
    exact hs.seam
  refine ⟨names o.keyword l.front, namesBehind o.keyword l.front l.back, ?_, ?_⟩
  · calc names o.keyword body
        = names o.keyword (l.front ++ g.raw) ++ namesBehind o.keyword (l.front ++ g.raw) l.back := by
          rw [← names_append hp hword hstop, ← l.body_split]
      _ = names o.keyword l.front ++ [o.name] ++ namesBehind o.keyword l.front l.back := by
          rw [names_append hp hword hstart, l.namesBehind_raw hp hword hraw hs.single hread hcode,
            hs.namesBehind_back l hp hword hafter hend]
  · rw [l.remainder_eq]
    exact names_append hp hword hseam

end Group

namespace Activation

/-- What stays disabled is listed from what is left of the body. -/
theorem disabled_eq {src : Bytes} {o : Options} {a : Activation} (hrun : run src o = .ok a) :
    a.disabled = Group.names o.keyword (Group.remainder a.region.body a.group) := by
  obtain ⟨hcheck, hlocate, hextract, -⟩ := exists_of_run hrun
  obtain ⟨-, ⟨hkeyword, -⟩, -⟩ := isUtf8_of_run hrun
  have hlist : Group.list (Group.remainder a.region.body a.group) o.keyword =
      .ok (Group.names o.keyword (Group.remainder a.region.body a.group)) := if_pos hkeyword
  simp only [run, hcheck, hlocate, hextract, hlist, bind, Except.bind, pure, Except.pure,
    Except.ok.injEq] at hrun
  rw [← hrun]

/-- **An activation takes one name off the list.** The groups that stay disabled are those that were
listed, in order, without the activated one. -/
theorem disabled_of_run {src : Bytes} {o : Options} {a : Activation} (hrun : run src o = .ok a)
    (hscan : o.isHeuristic = false) (hkeyword : Group.IsIdentifier o.keyword) (hname : Group.IsBare o.name)
    (hquotes : Group.SameQuotes o a.group) (hseam : Group.Seamless o a.region.body a.group) :
    ∃ pre post, list src o = .ok (pre ++ [o.name] ++ post) ∧ a.disabled = pre ++ post := by
  obtain ⟨hcheck, hlocate, hextract, -⟩ := exists_of_run hrun
  obtain ⟨-, ⟨hutf8, -⟩, -⟩ := isUtf8_of_run hrun
  obtain ⟨l⟩ := Region.layout_of_locate hlocate
  have hbalanced := Group.extractBalanced_of_extract hscan hextract
  obtain ⟨pre, post, hbody, hrest⟩ :=
    Group.names_of_seamless hbalanced hkeyword l.keyword_word hname hquotes hseam
  have hlist : list src o = .ok (Group.names o.keyword a.region.body) := by
    simp only [list, hcheck, hlocate, Group.list, hutf8, bind, Except.bind, if_true]
  refine ⟨pre, post, ?_, ?_⟩
  · rw [hlist, hbody]
  · rw [disabled_eq hrun, hrest]

set_option maxRecDepth 2048 in
/-- The middle one of three groups is taken out. The one in front has another one nested in it, and a
comment behind it on its line. -/
theorem disabled_of_run_between : ∃ pre post : List Bytes,
    list "/*m\nd('b',()=>\x7bd('x',()=>\x7b\x7d)\x7d); //c\nd(\"a\",()=>\x7bf('\x7d')\x7d);\nd('c',()=>\x7b\x7d);\n*/\nd('z'"
      { marker := "/*m", anchor := "z", keyword := "d", name := "a" } =
        .ok (pre ++ [Bytes.ofString "a"] ++ post) ∧
    [Bytes.ofString "b", Bytes.ofString "c"] = pre ++ post :=
  @disabled_of_run _ { marker := "/*m", anchor := "z", keyword := "d", name := "a" }
    ⟨"//m\nd(\"a\",()=>\x7bf('\x7d')\x7d);\n/*d('b',()=>\x7bd('x',()=>\x7b\x7d)\x7d); //c\nd('c',()=>\x7b\x7d);\n*/\nd('z'",
      ⟨"/*m\n", "d('b',()=>\x7bd('x',()=>\x7b\x7d)\x7d); //c\nd(\"a\",()=>\x7bf('\x7d')\x7d);\nd('c',()=>\x7b\x7d);",
        "\n*/\nd('z", 0⟩,
      ⟨"a", "\nd(\"a\",()=>\x7bf('\x7d')\x7d);", 31⟩, ["b", "c"]⟩
    rfl rfl ⟨by decide, by decide⟩ (by decide) ⟨quote, [], ",()=>\x7bf('\x7d')\x7d);", rfl, rfl, rfl⟩
    ⟨by decide, by decide, by decide, by decide, by decide, by decide, by decide⟩

/-- A comment in front of the group ends with its line. When the group is cut out together with that line
end, the comment takes in the group behind it: it is listed no more. -/
theorem comment_swallows_neighbour : ∃ (src : Bytes) (o : Options) (a : Activation),
    run src o = .ok a ∧ o.isHeuristic = false ∧ Group.IsIdentifier o.keyword ∧ Group.IsBare o.name ∧
      Group.SameQuotes o a.group ∧ list src o = .ok [o.name, Bytes.ofString "b"] ∧ a.disabled = [] :=
  ⟨"/*m\n// c\nd('a', () => \x7b\x7d);d('b', () => \x7b\x7d);\n*/\nd('z'",
    { marker := "/*m", anchor := "z", keyword := "d", name := "a" },
    ⟨"//m\nd('a', () => \x7b\x7d);\n/*// cd('b', () => \x7b\x7d);\n*/\nd('z'",
      ⟨"/*m\n", "// c\nd('a', () => \x7b\x7d);d('b', () => \x7b\x7d);", "\n*/\nd('z", 0⟩,
      ⟨"a", "\nd('a', () => \x7b\x7d);", 4⟩, []⟩,
    rfl, rfl, ⟨by decide, by decide +kernel⟩, by decide +kernel,
    ⟨apostrophe, [], ", () => \x7b\x7d);", rfl, rfl, rfl⟩, rfl, rfl⟩

end Activation

end Spotlight
