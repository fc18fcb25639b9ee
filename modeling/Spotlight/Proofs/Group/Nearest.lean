import Spotlight.Proofs.Group.Whole

/-!
# The nearest closing triple

One way to take a group counts braces, the other one ends it at the nearest closing triple behind its header. Both take
the same group where the header stands once in the body, in code or not, and no closing triple stands in the group but
at its end. The body must have no vertical tabs: in front of a header only one of the two counts them as white space.

* `Group.ClosesOnce`, `Group.closesOnce_iff` — a text with one closing triple, at its end;
* `Group.closerEnd?_eq`, `Group.leadingSpace_eq` — the two ends of the group;
* `Group.extract_heuristic_eq` — the group is the same.
-/

namespace Spotlight.Group

open Bytes

/-- The text ends with a closing triple, and has no other one. -/
def ClosesOnce (t : Bytes) : Prop := closer <:+ t ∧ ∀ u v, t = u ++ (closer ++ v) → v = []

section

variable {o : Options} {body : Bytes}

/-- The nearest closing triple ends the text that has no other one, whatever follows. -/
theorem closerEnd?_eq {i j : Nat} (hij : i ≤ j) (hj : j ≤ body.length) (hclose : ClosesOnce (between body i j)) :
    closerEnd? body i = some j := by
  obtain ⟨⟨x, hx⟩, honce⟩ := hclose
  have hdrop : body.drop i = x ++ (closer ++ body.drop j) := by
    rw [drop_eq_between_append body hij, ← hx, List.append_assoc]
  have hfind : find? closer (body.drop i) = some x.length := by
    rw [hdrop]
    exact find?_append (by rw [hx]; exact honce) _
  have hlen := length_between hij hj
  rw [← hx, List.length_append] at hlen
  rw [closerEnd?, hfind, Option.map_some]
  congr 1
  omega

/-- A text closes once where its nearest closing triple is its end. -/
theorem closesOnce_iff {t : Bytes} : ClosesOnce t ↔ closerEnd? t 0 = some t.length := by
  constructor
  · intro hclose
    apply closerEnd?_eq (Nat.zero_le _) (Nat.le_refl _)
    rwa [between, List.drop_zero, Nat.sub_zero, List.take_length]
  · intro hend
    obtain ⟨i, hi, hlen⟩ := Option.map_eq_some_iff.1 hend
    obtain ⟨⟨x, y, rfl, rfl⟩, hfirst⟩ := exists_of_find? hi
    simp only [List.length_append] at hlen
    obtain rfl : y = [] := List.eq_nil_of_length_eq_zero (by omega)
    refine ⟨⟨x, by rw [List.append_nil]⟩, ?_⟩
    intro u v huv
    have hle := hfirst u v huv
    have htotal := congrArg List.length huv
    simp only [List.length_append, List.length_nil] at htotal
    exact List.eq_nil_of_length_eq_zero (by omega)

instance (t : Bytes) : Decidable (ClosesOnce t) := decidable_of_iff _ closesOnce_iff.symm

/-- Without vertical tabs the two classes of white space are the same. -/
theorem leadingSpace_eq (hvt : 0x0b ∉ body) (i : Nat) :
    Scan.leadingSpace body i = i - ((body.take i).reverse.takeWhile isBlank).length := by
  have hsame : ∀ b ∈ (body.take i).reverse, isBlank b = Scan.isSpace b := by
    intro b hb
    have hne : b ≠ 0x0b := by
      rintro rfl
      exact hvt (List.mem_of_mem_take (List.mem_reverse.1 hb))
    simp [Scan.isSpace, hne]
  rw [Scan.leadingSpace, takeWhile_congr hsame]

/-- A header that stands once in a body is all there is to find. -/
theorem allHeadersFrom_eq_singleton (hp : Literal.IsPlain o.keyword) {h : Nat} {rest : Bytes}
    (hat : HeaderAt o body h rest) (hone : ∀ h' rest', HeaderAt o body h' rest' → h' = h) :
    allHeadersFrom o.keyword (.exactly o.name) 0 none body = [⟨h, body.length - rest.length, o.name⟩] := by
  refine eq_singleton_of_start (pairwise_allHeadersFrom 0 none body) (hat.mem_allHeaders hp) ?_
  intro hd hmem
  obtain ⟨rest', hat', -⟩ := (mem_allHeadersFrom_iff hp).1 hmem
  exact hone _ _ hat'

/-- Headers at the top level are headers. -/
theorem topLevel_subset (keyword : Bytes) (names : NamePattern) :
    topLevel keyword names body ⊆ allHeadersFrom keyword names 0 none body := by
  rw [topLevel_eq_filter_headers]
  exact fun hd hmem => (headersFrom_sublist 0 0 none body).subset (List.mem_of_mem_filter hmem)

/-- **Both ways take the same group** where its header stands once in the body and the text behind the brace of the
header has one closing triple, at its end. -/
theorem extract_heuristic_eq (hkey : IsKeyword o.keyword) (hvt : 0x0b ∉ body) (hscan : o.isHeuristic = false)
    {h : Nat} {rest : Bytes} (hat : HeaderAt o body h rest) (hone : ∀ h' rest', HeaderAt o body h' rest' → h' = h)
    {g : Group} (hg : extract body o = .ok g) (hclose : ClosesOnce (between body (body.length - rest.length) g.stop)) :
    extract body { o with scan := "heuristic" } = .ok g := by
  have hall := allHeadersFrom_eq_singleton hkey.isPlain hat hone
  have hutf8 := isUtf8_of_extract hg
  obtain ⟨hd, brace, stop, htop, hbrace, hcall, rfl⟩ := exists_of_extractBalanced (extractBalanced_of_extract hscan hg)
  -- the header at the top level is the only one there is
  have hmem : hd ∈ allHeadersFrom o.keyword (.exactly o.name) 0 none body :=
    topLevel_subset o.keyword _ (by rw [htop]; exact List.mem_cons_self)
  rw [hall] at hmem
  obtain rfl := List.mem_singleton.1 hmem
  dsimp only at hbrace hclose ⊢
  have hlt := hat.drop_eq.1
  have hmatch := Scan.matchBrace?_bounds hbrace
  have hbounds := Scan.closeCall?_bounds hcall
  have hle : Scan.leadingSpace body h ≤ h := Nat.sub_le _ _
  rw [slice_stop (by omega) hbounds.2] at hclose
  have hend := closerEnd?_eq (by omega) hbounds.2 hclose
  have hspans : heuristicSpans body 0 [⟨h, body.length - rest.length, o.name⟩] =
      [(Scan.leadingSpace body h, stop)] := by
    simp only [heuristicSpans, Nat.not_lt_zero, if_false, hend, List.drop_zero, leadingSpace_eq hvt]
  have hextract : extract body { o with scan := "heuristic" } = extractHeuristic body o := by
    have hheuristic : Options.isHeuristic { o with scan := "heuristic" } = true :=
      beq_self_eq_true (Bytes.ofString "heuristic")
    rw [extract, hutf8, hheuristic]
    rfl
  rw [hextract, extractHeuristic, hall, hspans]
  rfl

end

/-- The group has a form feed in the white space in front, braces in a string, in a template and in a comment, and an
object behind its body. A closing triple stands in a string in front of it, and an open brace behind. -/
theorem extract_heuristic_eq_arguments :
    let o : Options := { keyword := "d.x", name := "a" }
    let body : Bytes := "it('\x7d);'); // \x7d\n\x0c\td.x( 'a'\n, async () =>\r\n\x7b " ++
      "it(\"\x7d\", `$\x7bf(\x7b\x7d)\x7d`); /* \x7d */ \x7d, \x7b t: [1] \x7d);\n\x7b ("
    let g : Group := slice "a" body 15 88
    IsKeyword o.keyword ∧ 0x0b ∉ body ∧ o.isHeuristic = false ∧
      (∃ rest, HeaderAt o body 18 rest ∧ ClosesOnce (between body (body.length - rest.length) g.stop)) ∧
      (∀ h' rest', HeaderAt o body h' rest' → h' = 18) ∧ extract body o = .ok g ∧
      extract body { o with scan := "heuristic" } = .ok g := by
  intro o body g
  have hkey : IsKeyword o.keyword := by decide
  have hvt : 0x0b ∉ body := by decide +kernel
  have hall : allHeadersFrom o.keyword (.exactly o.name) 0 none body = [⟨18, 43, "a"⟩] := by decide +kernel
  obtain ⟨rest, hat, hlen, -⟩ := (mem_allHeadersFrom_iff hkey.isPlain).1 (hall ▸ List.mem_cons_self)
  have hone : ∀ h' rest', HeaderAt o body h' rest' → h' = 18 := by
    intro h' rest' hat'
    have hmem := hat'.mem_allHeaders hkey.isPlain
    rw [hall] at hmem
    exact congrArg Header.start (List.mem_singleton.1 hmem)
  have hg : extract body o = .ok g := by decide +kernel
  have hstop : body.length - rest.length = 43 := Nat.sub_eq_of_eq_add hlen.symm
  have hclose : ClosesOnce (between body (body.length - rest.length) g.stop) := by
    rw [hstop]
    decide +kernel
  exact ⟨hkey, hvt, rfl, ⟨rest, hat, hclose⟩, hone, hg, extract_heuristic_eq hkey hvt rfl hat hone hg hclose⟩

end Spotlight.Group
