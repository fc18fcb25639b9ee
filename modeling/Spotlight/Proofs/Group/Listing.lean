import Spotlight.Proofs.Group.Whole

/-!
# Listing and taking agree

A name is listed where the search for all names finds a header of it at the top level, and the group of that name is
taken where the search by name finds one. The search for all names may pass over a header, and it wants two quotes of
the same kind, so it finds less; what it finds, the search by name finds, too.

* `Group.readExactly_of_readAny` — a header that is read with any name is read with its own;
* `Group.filter_topLevel_sublist` — the headers that are listed under a name are among those of that name;
* `Group.extract_of_list` — a name that is listed has a group, and one that is listed twice is ambiguous.
-/

namespace Spotlight.Group

open Bytes

/-! ### The two searches -/

/-- A header that is read with any name is read with its own. -/
theorem readExactly_of_readAny {keyword : Bytes} {before : Option UInt8} {s name rest : Bytes}
    (h : readHeader? keyword .any before s = some (name, rest)) :
    readHeader? keyword (.exactly name) before s = some (name, rest) := by
  obtain ⟨hbound, inner, tail, last, hkey, hname, harg, hbrace⟩ := readHeader?_eq_some_iff.1 h
  refine readHeader?_eq_some_iff.2 ⟨hbound, inner, tail, last, hkey, ?_, harg, hbrace⟩
  obtain ⟨q, hinner, hq, -⟩ := readAny?_eq_some_iff.1 hname
  rw [hinner]
  exact readExactly?_eq_some_iff.2 ⟨rfl, q, name, q, rfl, hq, hq, Literal.strip?_append name _⟩

section

variable {keyword name : Bytes}

/-- What the search for all names finds under a name is found by that name, wherever headers may start. -/
theorem filter_headersFrom_sublist (skip i : Nat) (before : Option UInt8) (s : Bytes) :
    ((headersFrom keyword .any skip i before s).filter fun h => h.name == name).Sublist
      (allHeadersFrom keyword (.exactly name) i before s) := by
  fun_induction headersFrom keyword .any skip i before s with
  | case1 => exact List.nil_sublist _
  | case2 before skip i b s ih => exact ih.trans (allHeadersFrom_cons_sublist i before b s)
  | case3 i before b s n rest hread ih =>
    by_cases hn : n = name
    · subst hn
      rw [List.filter_cons_of_pos (by simp), allHeadersFrom, readExactly_of_readAny hread]
      exact ih.cons_cons _
    · rw [List.filter_cons_of_neg (by simpa using hn)]
      exact ih.trans (allHeadersFrom_cons_sublist i before b s)
  | case4 i before b s hread ih => exact ih.trans (allHeadersFrom_cons_sublist i before b s)

end

/-! ### Names that are listed -/

section

variable {o : Options} {body : Bytes}

/-- Where the search by name finds a header, the group may be ill formed, but it is not missing. -/
theorem extractBalanced_ne_groupNotFound (h : topLevel o.keyword (.exactly o.name) body ≠ []) (keyword name : Bytes) :
    extractBalanced body o ≠ .error (.groupNotFound keyword name) := by
  obtain ⟨hd, hs, htop⟩ := List.exists_cons_of_ne_nil h
  rw [extractBalanced, htop]
  cases hs with
  | cons hd' hs => simp [only, bind, Except.bind]
  | nil =>
    simp only [only, bind, Except.bind]
    cases Scan.matchBrace? body (hd.stop - 1) with
    | none => simp
    | some brace => cases hclose : Scan.closeCall? body brace <;> simp [hclose]

theorem only_of_length {α : Type} {l : List α} (h : 2 ≤ l.length) :
    only o l = .error (.ambiguousGroup o.keyword o.name) := by
  match l with
  | _ :: _ :: _ => rfl

/-- **The headers that are listed under a name are among those of that name.** -/
theorem filter_topLevel_sublist (hkey : IsKeyword o.keyword) (hfree : ¬ o.keyword ++ [lparen] <:+: o.name) :
    ((topLevel o.keyword .any body).filter fun h => h.name == o.name).Sublist
      (topLevel o.keyword (.exactly o.name) body) := by
  rw [topLevel_eq_filter_headers, topLevel_eq_filter_all hkey hfree, List.filter_comm]
  exact (filter_headersFrom_sublist 0 0 none body).filter _

/-- A name is listed as often as the search for all names finds it at the top level. -/
theorem count_names (name keyword : Bytes) :
    (names keyword body).count name = ((topLevel keyword .any body).filter fun h => h.name == name).length := by
  rw [names, List.count_eq_countP, List.countP_map, List.countP_eq_length_filter]
  rfl

/-- **A name that is listed has a group, and one that is listed twice is ambiguous.** Every body can be listed. -/
theorem extract_of_list (hscan : o.isHeuristic = false) (hkey : IsKeyword o.keyword) (hname : o.name.isUtf8 = true)
    (hfree : ¬ o.keyword ++ [lparen] <:+: o.name) (body : Bytes) :
    ∃ listed, list body o.keyword = .ok listed ∧
      (listed.count o.name = 1 → ∀ keyword name, extract body o ≠ .error (.groupNotFound keyword name)) ∧
      (2 ≤ listed.count o.name → extract body o = .error (.ambiguousGroup o.keyword o.name)) := by
  have hutf8 : o.keyword.isUtf8 = true := isUtf8_of_ascii hkey.ascii
  have hextract : extract body o = extractBalanced body o := by
    rw [extract, hutf8, hname, hscan]
    rfl
  have hle : (names o.keyword body).count o.name ≤ (topLevel o.keyword (.exactly o.name) body).length := by
    rw [count_names]
    exact (filter_topLevel_sublist hkey hfree).length_le
  rw [hextract]
  refine ⟨names o.keyword body, if_pos hutf8, fun hone keyword name => ?_, fun htwo => ?_⟩
  · exact extractBalanced_ne_groupNotFound (List.ne_nil_of_length_pos (by omega)) keyword name
  · rw [extractBalanced, only_of_length (by omega)]
    rfl

end

/-- One name is listed once and another one twice, in quotes of two kinds. Headers in a comment, in braces and in the
body of another group are not listed. -/
theorem extract_of_list_repeated :
    let once : Options := { keyword := "d.x", name := "a" }
    let twice : Options := { keyword := "d.x", name := "b" }
    let body : Bytes := "d.x('b',()=>\x7b\x7d); // d.x('a',()=>\x7b\x7d)\n\x7bd.x('a',()=>\x7b\x7d)\x7d" ++
      "d.x(`a`, async function () \x7bd.x('a',()=>\x7b\x7d);\x7d);d.x(\"b\",()=>\x7b\x7d)"
    (once.isHeuristic = false ∧ twice.isHeuristic = false) ∧ IsKeyword "d.x" ∧
      (once.name.isUtf8 = true ∧ twice.name.isUtf8 = true) ∧
      (¬ once.keyword ++ [lparen] <:+: once.name ∧ ¬ twice.keyword ++ [lparen] <:+: twice.name) ∧
      list body "d.x" = .ok [Bytes.ofString "b", Bytes.ofString "a", Bytes.ofString "b"] ∧
      (∀ keyword name, extract body once ≠ .error (.groupNotFound keyword name)) ∧
      extract body twice = .error (.ambiguousGroup "d.x" "b") := by
  intro once twice body
  have hkey : IsKeyword "d.x" := by decide
  have hutf8 : once.name.isUtf8 = true ∧ twice.name.isUtf8 = true := by decide
  have hfree : ¬ once.keyword ++ [lparen] <:+: once.name ∧ ¬ twice.keyword ++ [lparen] <:+: twice.name := by decide
  have hlist : list body "d.x" = .ok [Bytes.ofString "b", Bytes.ofString "a", Bytes.ofString "b"] := by decide +kernel
  obtain ⟨listed, honce, hfound, -⟩ := extract_of_list (o := once) rfl hkey hutf8.1 hfree.1 body
  obtain ⟨listed', htwice, -, hmany⟩ := extract_of_list (o := twice) rfl hkey hutf8.2 hfree.2 body
  obtain rfl := Except.ok.inj (hlist.symm.trans honce)
  obtain rfl := Except.ok.inj (hlist.symm.trans htwice)
  exact ⟨⟨rfl, rfl⟩, hkey, hutf8, hfree, hlist, hfound (by decide), hmany (by decide)⟩

end Spotlight.Group
