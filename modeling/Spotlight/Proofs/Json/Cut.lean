import Spotlight.Proofs.Json.Reading
import Spotlight.Proofs.Json.RoundTrip

/-!
# Texts that are cut off

A value that was read is read again when its text goes on, unless it is a number that the text ends with. So no part
of the text of an object in front of its last brace is read as a value.

* `Json.readString?_append`, `Json.readNumber?_append` — strings and numbers;
* `Json.readValue?_append` — values, and with them items and members;
* `Json.parse_take_print` — a printed object that is cut off is no value.
-/

namespace Spotlight.Json

open Bytes

theorem skipGap_append_of_cons {s t : Bytes} {b : UInt8} (h : skipGap s = b :: t) (x : Bytes) :
    skipGap (s ++ x) = b :: (t ++ x) := by
  have hne : ¬ (s.dropWhile isGap).isEmpty = true := by
    rw [skipGap] at h
    rw [h]
    exact Bool.false_ne_true
  rw [skipGap] at h ⊢
  rw [List.dropWhile_append, if_neg hne, h, List.cons_append]

/-! ### Strings -/

/-- The pieces of a string are read the same whatever follows its quote. -/
theorem pieces?_append {s rest : Bytes} {ps : List Piece} (h : pieces? s = some (ps, rest)) (t : Bytes) :
    pieces? (s ++ t) = some (ps, rest ++ t) := by
  fun_induction pieces? s generalizing ps rest with
  | case1 | case3 | case5 | case7 | case8 => simp at h
  | case2 s =>
    cases h
    exact pieces?_quote (s ++ t)
  | case4 x y z w s n hn _ _ ih =>
    obtain ⟨⟨more, _⟩, hmore, heq⟩ := Option.map_eq_some_iff.1 h
    cases heq
    simp only [List.cons_append]
    rw [pieces?_unit hn, ih hmore]
    rfl
  | case6 e s hne c hc _ _ ih =>
    obtain ⟨⟨more, _⟩, hmore, heq⟩ := Option.map_eq_some_iff.1 h
    cases heq
    have he : e ≠ 0x75 := by
      rintro rfl
      have hnone : escapeByte? 0x75 = none := rfl
      rw [hnone] at hc
      cases hc
    rw [List.cons_append, List.cons_append, pieces?_escape he hc, ih hmore]
    rfl
  | case9 b s hquote hcontrol hbackslash ih =>
    obtain ⟨⟨more, _⟩, hmore, heq⟩ := Option.map_eq_some_iff.1 h
    cases heq
    rw [List.cons_append, pieces?_byte hquote hcontrol hbackslash, ih hmore]
    rfl

theorem readString?_append {s text rest : Bytes} (h : readString? s = some (text, rest)) (t : Bytes) :
    readString? (s ++ t) = some (text, rest ++ t) := by
  obtain ⟨⟨ps, _⟩, hps, heq⟩ := Option.map_eq_some_iff.1 h
  cases heq
  rw [readString?, pieces?_append hps]
  rfl

/-! ### Numbers -/

section Numbers

variable {s x rest : Bytes}

theorem head?_append_of_ne_nil (hrest : rest ≠ []) (t : Bytes) : (rest ++ t).head? = rest.head? := by
  cases rest with
  | nil => exact absurd rfl hrest
  | cons b rest => rfl

theorem digits?_more (h : digits? s = some (x, rest)) (hrest : rest ≠ []) (t : Bytes) :
    digits? (s ++ t) = some (x, rest ++ t) := by
  obtain ⟨rfl, hne, hx, hstop⟩ := digits?_eq_some_iff.1 h
  rw [digits?_eq_some_iff, head?_append_of_ne_nil hrest]
  exact ⟨List.append_assoc x rest t, hne, hx, hstop⟩

theorem whole?_of_ne {b : UInt8} (hb : b ≠ 0x30) (s : Bytes) : whole? (b :: s) = digits? (b :: s) := by
  unfold whole?
  split
  · rename_i heq
    exact absurd (List.cons.inj heq).1 hb
  · rfl

theorem whole?_more (h : whole? s = some (x, rest)) (hrest : rest ≠ []) (t : Bytes) :
    whole? (s ++ t) = some (x, rest ++ t) := by
  cases s with
  | nil => cases h
  | cons b s =>
    by_cases hb : b = 0x30
    · subst hb
      cases h
      rfl
    · rw [whole?_of_ne hb] at h
      rw [List.cons_append, whole?_of_ne hb]
      exact digits?_more h hrest t

theorem fraction?_of_ne {b : UInt8} (hb : b ≠ 0x2e) (s : Bytes) : fraction? (b :: s) = some ([], b :: s) := by
  unfold fraction?
  split
  · rename_i heq
    exact absurd (List.cons.inj heq).1 hb
  · rfl

theorem fraction?_more (h : fraction? s = some (x, rest)) (hrest : rest ≠ []) (t : Bytes) :
    fraction? (s ++ t) = some (x, rest ++ t) := by
  cases s with
  | nil =>
    cases h
    exact absurd rfl hrest
  | cons b s =>
    by_cases hb : b = 0x2e
    · subst hb
      obtain ⟨⟨ds, _⟩, hds, heq⟩ := Option.map_eq_some_iff.1 h
      cases heq
      show (digits? (s ++ t)).map _ = _
      rw [digits?_more hds hrest]
      rfl
    · rw [fraction?_of_ne hb] at h
      cases h
      rw [List.cons_append, fraction?_of_ne hb]

theorem exponent?_more (h : exponent? s = some (x, rest)) (hrest : rest ≠ []) (t : Bytes) :
    exponent? (s ++ t) = some (x, rest ++ t) := by
  cases s with
  | nil =>
    cases h
    exact absurd rfl hrest
  | cons e s =>
    rw [exponent?.eq_def] at h
    rw [List.cons_append, exponent?.eq_def]
    dsimp only at h ⊢
    split at h
    · rename_i he
      rw [if_pos he]
      cases s with
      | nil => cases h
      | cons c s =>
        rw [List.cons_append]
        dsimp only at h ⊢
        split at h
        · rename_i hc
          obtain ⟨⟨ds, _⟩, hds, heq⟩ := Option.map_eq_some_iff.1 h
          cases heq
          rw [if_pos hc, digits?_more hds hrest]
          rfl
        · rename_i hc
          obtain ⟨⟨ds, _⟩, hds, heq⟩ := Option.map_eq_some_iff.1 h
          cases heq
          rw [if_neg hc, ← List.cons_append, digits?_more hds hrest]
          rfl
    · rename_i he
      cases h
      rw [if_neg he]
      rfl

theorem sign_of_ne {b : UInt8} (hb : b ≠ 0x2d) (s : Bytes) : sign (b :: s) = ([], b :: s) := by
  unfold sign
  split
  · rename_i heq
    exact absurd (List.cons.inj heq).1 hb
  · rfl

theorem sign_append (hs : s ≠ []) (t : Bytes) : sign (s ++ t) = ((sign s).1, (sign s).2 ++ t) := by
  cases s with
  | nil => exact absurd rfl hs
  | cons b s =>
    by_cases hb : b = 0x2d
    · subst hb
      rfl
    · rw [List.cons_append, sign_of_ne hb, sign_of_ne hb]
      rfl

/-- A number is read the same if something followed it already. -/
theorem readNumber?_append (h : readNumber? s = some (x, rest)) (hrest : rest ≠ []) (t : Bytes) :
    readNumber? (s ++ t) = some (x, rest ++ t) := by
  obtain ⟨⟨ds, s₁⟩, hwhole, h⟩ := Option.bind_eq_some_iff.1 h
  obtain ⟨⟨frac, s₂⟩, hfraction, h⟩ := Option.bind_eq_some_iff.1 h
  obtain ⟨⟨exp, s₃⟩, hexponent, h⟩ := Option.bind_eq_some_iff.1 h
  have hwhole : whole? (sign s).2 = some (ds, s₁) := hwhole
  have hend : ((sign s).1 ++ ds ++ frac ++ exp, s₃) = (x, rest) := Option.some.inj h
  obtain ⟨hx, rfl⟩ := Prod.mk.inj hend
  have hne₂ : s₂ ≠ [] := (numeral_of_exponent? hexponent).ne_nil hrest
  have hne₁ : s₁ ≠ [] := (numeral_of_fraction? hfraction).ne_nil hne₂
  have hne : s ≠ [] := (numeral_sign s).ne_nil ((numeral_of_whole? hwhole).ne_nil hne₁)
  rw [readNumber?, sign_append hne]
  dsimp only
  rw [whole?_more hwhole hne₁, Option.bind_eq_bind, Option.bind_some]
  dsimp only
  rw [fraction?_more hfraction hne₂, Option.bind_some]
  dsimp only
  rw [exponent?_more hexponent hrest, ← hx]
  rfl

end Numbers

/-! ### Values -/

theorem strip?_append_right {lit s rest : Bytes} (h : strip? lit s = some rest) (t : Bytes) :
    strip? lit (s ++ t) = some (rest ++ t) := by
  rw [strip?_eq_some_iff] at h ⊢
  rw [h, List.append_assoc]

theorem exists_of_readItems? {fuel depth : Nat} {s rest : Bytes} {vs : List Value}
    (h : readItems? fuel depth s = some (vs, rest)) : ∃ b t, skipGap s = b :: t := by
  cases hskip : skipGap s with
  | cons b t => exact ⟨b, t, rfl⟩
  | nil =>
    have hnone : ∀ fuel, readValue? fuel depth s = none := by
      intro fuel
      cases fuel with
      | zero => rw [readValue?]
      | succ fuel => rw [readValue?, hskip]
    cases fuel with
    | zero => simp [readItems?] at h
    | succ fuel =>
      rw [readItems?, hnone] at h
      cases h

theorem exists_of_readMembers? {fuel depth : Nat} {s rest : Bytes} {ms : List (Bytes × Value)}
    (h : readMembers? fuel depth s = some (ms, rest)) : ∃ b t, skipGap s = b :: t := by
  cases hskip : skipGap s with
  | cons b t => exact ⟨b, t, rfl⟩
  | nil =>
    cases fuel with
    | zero => simp [readMembers?] at h
    | succ fuel =>
      rw [readMembers?, hskip] at h
      cases h

mutual

/-- A value is read the same when the text goes on, if something followed it already or it is an object. -/
theorem readValue?_append : ∀ (fuel : Nat) {fuel' depth : Nat} {s rest : Bytes} {v : Value}, fuel ≤ fuel' →
    readValue? fuel depth s = some (v, rest) → (rest ≠ [] ∨ (skipGap s).head? = some lbrace) → ∀ t : Bytes,
    readValue? fuel' depth (s ++ t) = some (v, rest ++ t)
  | 0, fuel', depth, s, rest, v, _, h, _, t => by simp [readValue?] at h
  | fuel + 1, 0, depth, s, rest, v, hle, h, _, t => by omega
  | fuel + 1, fuel' + 1, depth, s, rest, v, hle, h, hrest, t => by
    have hle : fuel ≤ fuel' := Nat.le_of_succ_le_succ hle
    rw [readValue?] at h
    split at h
    · simp at h
    · rename_i b s' hskip
      rw [readValue?, skipGap_append_of_cons hskip]
      rw [hskip] at hrest
      dsimp only
      split at h
      · rw [if_pos ‹_›]
        obtain ⟨⟨text, _⟩, htext, heq⟩ := Option.map_eq_some_iff.1 h
        cases heq
        rw [readString?_append htext]
        rfl
      · rw [if_neg ‹_›]
        split at h
        · rw [if_pos ‹_›]
          split at h
          · cases h
          · rename_i hclose
            cases h
            rw [skipGap_append_of_cons hclose]
            rfl
          · rename_i depth _ hopen
            obtain ⟨⟨vs, _⟩, hvs, heq⟩ := Option.map_eq_some_iff.1 h
            cases heq
            obtain ⟨c, u, hcu⟩ := exists_of_readItems? hvs
            rw [skipGap_append_of_cons hcu]
            split
            · contradiction
            · rename_i hc
              cases hc
              exact absurd hcu (hopen _)
            · rename_i hdepth _
              cases hdepth
              rw [readItems?_append fuel hle hvs t]
              rfl
        · rw [if_neg ‹_›]
          split at h
          · rw [if_pos ‹_›]
            split at h
            · cases h
            · rename_i hclose
              cases h
              rw [skipGap_append_of_cons hclose]
              rfl
            · rename_i depth _ hopen
              obtain ⟨⟨ms, _⟩, hms, heq⟩ := Option.map_eq_some_iff.1 h
              cases heq
              obtain ⟨c, u, hcu⟩ := exists_of_readMembers? hms
              rw [skipGap_append_of_cons hcu]
              split
              · contradiction
              · rename_i hc
                cases hc
                exact absurd hcu (hopen _)
              · rename_i hdepth _
                cases hdepth
                rw [readMembers?_append fuel hle hms t]
                rfl
          · -- the other values are words, or else numbers
            rename_i hbrace
            rw [if_neg hbrace]
            have hrest : rest ≠ [] := hrest.resolve_right fun hhead => hbrace (Option.some.inj hhead)
            split at h
            · rw [if_pos ‹_›]
              obtain ⟨_, hword, heq⟩ := Option.map_eq_some_iff.1 h
              cases heq
              rw [strip?_append_right hword]
              rfl
            · rw [if_neg ‹_›]
              split at h
              · rw [if_pos ‹_›]
                obtain ⟨_, hword, heq⟩ := Option.map_eq_some_iff.1 h
                cases heq
                rw [strip?_append_right hword]
                rfl
              · rw [if_neg ‹_›]
                split at h
                · rw [if_pos ‹_›]
                  obtain ⟨_, hword, heq⟩ := Option.map_eq_some_iff.1 h
                  cases heq
                  rw [strip?_append_right hword]
                  rfl
                · rw [if_neg ‹_›]
                  obtain ⟨⟨n, _⟩, hn, heq⟩ := Option.map_eq_some_iff.1 h
                  cases heq
                  rw [← List.cons_append, readNumber?_append hn hrest]
                  rfl

/-- Items are read the same when the text goes on. -/
theorem readItems?_append : ∀ (fuel : Nat) {fuel' depth : Nat} {s rest : Bytes} {vs : List Value}, fuel ≤ fuel' →
    readItems? fuel depth s = some (vs, rest) → ∀ t : Bytes, readItems? fuel' depth (s ++ t) = some (vs, rest ++ t)
  | 0, fuel', depth, s, rest, vs, _, h, t => by simp [readItems?] at h
  | fuel + 1, 0, depth, s, rest, vs, hle, h, t => by omega
  | fuel + 1, fuel' + 1, depth, s, rest, vs, hle, h, t => by
    have hle : fuel ≤ fuel' := Nat.le_of_succ_le_succ hle
    rw [readItems?] at h
    split at h
    · cases h
    · rename_i v s₁ hv
      have hv' : ∀ {b u}, skipGap s₁ = b :: u → readValue? fuel' depth (s ++ t) = some (v, s₁ ++ t) := by
        intro b u hskip
        refine readValue?_append fuel hle hv (.inl ?_) t
        rintro rfl
        cases hskip
      split at h
      · rename_i hskip
        cases h
        rw [readItems?, hv' hskip]
        dsimp only
        rw [skipGap_append_of_cons hskip]
        rfl
      · rename_i hskip
        obtain ⟨⟨ws, _⟩, hws, heq⟩ := Option.map_eq_some_iff.1 h
        cases heq
        rw [readItems?, hv' hskip]
        dsimp only
        rw [skipGap_append_of_cons hskip]
        show (readItems? fuel' depth (_ ++ t)).map _ = _
        rw [readItems?_append fuel hle hws t]
        rfl
      · cases h

/-- Members are read the same when the text goes on. -/
theorem readMembers?_append : ∀ (fuel : Nat) {fuel' depth : Nat} {s rest : Bytes} {ms : List (Bytes × Value)},
    fuel ≤ fuel' → readMembers? fuel depth s = some (ms, rest) → ∀ t : Bytes,
    readMembers? fuel' depth (s ++ t) = some (ms, rest ++ t)
  | 0, fuel', depth, s, rest, ms, _, h, t => by simp [readMembers?] at h
  | fuel + 1, 0, depth, s, rest, ms, hle, h, t => by omega
  | fuel + 1, fuel' + 1, depth, s, rest, ms, hle, h, t => by
    have hle : fuel ≤ fuel' := Nat.le_of_succ_le_succ hle
    rw [readMembers?] at h
    split at h
    · rename_i s₁ hquote
      split at h
      · cases h
      · rename_i key s₂ hkey
        split at h
        · rename_i s₃ hcolon
          split at h
          · cases h
          · rename_i v s₄ hv
            have hstep := readMembers?_of_key fuel' depth (skipGap_append_of_cons hquote t)
              (readString?_append hkey t) (skipGap_append_of_cons hcolon t)
            have hv' : ∀ {b u}, skipGap s₄ = b :: u → readValue? fuel' depth (s₃ ++ t) = some (v, s₄ ++ t) := by
              intro b u hskip
              refine readValue?_append fuel hle hv (.inl ?_) t
              rintro rfl
              cases hskip
            split at h
            · rename_i hskip
              cases h
              rw [hstep, hv' hskip]
              dsimp only
              rw [skipGap_append_of_cons hskip]
              rfl
            · rename_i hskip
              obtain ⟨⟨more, _⟩, hmore, heq⟩ := Option.map_eq_some_iff.1 h
              cases heq
              rw [hstep, hv' hskip]
              dsimp only
              rw [skipGap_append_of_cons hskip]
              show (readMembers? fuel' depth (_ ++ t)).map _ = _
              rw [readMembers?_append fuel hle hmore t]
              rfl
            · cases h
        · cases h
    · cases h

end

/-! ### Printed objects -/

/-- **A printed object that is cut off is no value.** -/
theorem parse_take_print {v : Value} (h : v.Fits maxDepth) (hobject : v.print.head? = some lbrace) {n : Nat}
    (hn : n < v.print.length) : parse (v.print.take n) = none := by
  rw [parse]
  split
  · rename_i w rest hread
    have hhead : (skipGap (v.print.take n)).head? = some lbrace := by
      cases n with
      | zero =>
        rw [List.take_zero, readValue?] at hread
        cases hread
      | succ n =>
        cases htext : v.print with
        | nil =>
          rw [htext] at hobject
          cases hobject
        | cons b text =>
          rw [htext] at hobject
          obtain rfl := Option.some.inj hobject
          rw [List.take_succ_cons, skipGap_cons rfl]
          rfl
    have hle : 2 * (v.print.take n).length + 2 ≤ 2 * v.print.length + 2 := by
      rw [List.length_take]
      omega
    have hwhole := readValue?_append _ hle hread (.inr hhead) (v.print.drop n)
    have hprint : readValue? (2 * v.print.length + 2) maxDepth (v.print ++ []) = some (v.repaired, []) :=
      readValue?_printAt v 0 _ h rfl (by rw [Value.print]; omega)
    rw [List.take_append_drop] at hwhole
    rw [List.append_nil, hwhole] at hprint
    obtain ⟨-, hend⟩ := Prod.mk.inj (Option.some.inj hprint)
    have hdrop := congrArg List.length (List.append_eq_nil_iff.1 hend).2
    rw [List.length_drop, List.length_nil] at hdrop
    omega
  · rfl

end Spotlight.Json
