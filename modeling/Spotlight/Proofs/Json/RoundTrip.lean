import Spotlight.Proofs.Json.Numbers
import Spotlight.Proofs.Json.Strings

/-!
# Values are read back

* `Json.Value.repaired` — a value with all its strings repaired;
* `Json.Value.Fits` — does a value nest at most so deep, and are all its numbers integers?
* `Json.readValue?_printAt` — a printed value is read back, whatever follows it;
* `Json.parse_print` — a text that holds a printed value stands for that value.
-/

namespace Spotlight.Json

open Bytes

mutual

/-- The value with all its strings repaired. -/
def Value.repaired : Value → Value
  | .null => .null
  | .bool b => .bool b
  | .number literal => .number literal
  | .string s => .string (Rune.repaired s)
  | .array vs => .array (repairedItems vs)
  | .object ms => .object (repairedMembers ms)

/-- Repairs the items of an array. -/
def repairedItems : List Value → List Value
  | [] => []
  | v :: vs => v.repaired :: repairedItems vs

/-- Repairs the members of an object. -/
def repairedMembers : List (Bytes × Value) → List (Bytes × Value)
  | [] => []
  | (key, v) :: ms => (Rune.repaired key, v.repaired) :: repairedMembers ms

end

mutual

/-- Does the value nest at most `depth` deep, and are all its numbers integers? -/
def Value.Fits (depth : Nat) : Value → Prop
  | .number literal => ∃ n, literal = ofInt n
  | .array vs => 0 < depth ∧ ItemsFit (depth - 1) vs
  | .object ms => 0 < depth ∧ MembersFit (depth - 1) ms
  | _ => True

/-- Do all items of an array fit? -/
def ItemsFit (depth : Nat) : List Value → Prop
  | [] => True
  | v :: vs => v.Fits depth ∧ ItemsFit depth vs

/-- Do all members of an object fit? -/
def MembersFit (depth : Nat) : List (Bytes × Value) → Prop
  | [] => True
  | (_, v) :: ms => v.Fits depth ∧ MembersFit depth ms

end

/-! ### White space -/

theorem all_isGap_newline (level : Nat) : (newline level).all isGap = true := by
  rw [newline, List.all_cons, List.all_replicate]
  simp [isGap]

/-- White space is skipped. -/
theorem skipGap_append {gap : Bytes} (h : gap.all isGap = true) (s : Bytes) :
    skipGap (gap ++ s) = skipGap s :=
  List.dropWhile_append_of_pos (List.all_eq_true.1 h)

theorem skipGap_cons {b : UInt8} (h : isGap b = false) (s : Bytes) : skipGap (b :: s) = b :: s :=
  List.dropWhile_cons_of_neg (by simp [h])

theorem readValue?_gap {gap : Bytes} (h : gap.all isGap = true) (fuel depth : Nat) (s : Bytes) :
    readValue? fuel depth (gap ++ s) = readValue? fuel depth s := by
  cases fuel with
  | zero => rw [readValue?, readValue?]
  | succ fuel => rw [readValue?, skipGap_append h, readValue?]

/-! ### The first byte of a value -/

/-- An integer starts with a digit or a minus sign. -/
theorem exists_head_ofInt (n : Int) : ∃ b t, ofInt n = b :: t ∧ (isDigit b = true ∨ b = 0x2d) := by
  cases n with
  | ofNat n =>
    show ∃ b t, ofNat n = b :: t ∧ (isDigit b = true ∨ b = 0x2d)
    cases hds : ofNat n with
    | nil => exact absurd hds (ofNat_ne_nil n)
    | cons b ds =>
      refine ⟨b, ds, rfl, Or.inl ?_⟩
      exact List.all_eq_true.1 (all_isDigit_ofNat n) b (by rw [hds]; simp)
  | negSucc n => exact ⟨0x2d, _, rfl, Or.inr rfl⟩

/-- The byte that tells the kind of a value: no white space, and it closes nothing. -/
def startsValue (b : UInt8) : Bool := !isGap b && b != rbracket && b != rbrace

/-- The first byte of a number tells that it is none of the other values. -/
theorem startsNumber {b : UInt8} (h : isDigit b = true ∨ b = 0x2d) :
    startsValue b = true ∧ b ≠ quote ∧ b ≠ lbracket ∧ b ≠ lbrace ∧ b ≠ 0x6e ∧ b ≠ 0x74 ∧ b ≠ 0x66 := by
  simp only [isDigit, Bool.and_eq_true, decide_eq_true_eq, UInt8.le_iff_toNat_le, ← UInt8.toNat_inj,
    UInt8.reduceToNat] at h
  simp only [startsValue, isGap, space, tab, lf, cr, rbracket, rbrace, quote, lbracket, lbrace,
    Bool.and_eq_true, Bool.not_eq_true', Bool.or_eq_false_iff, beq_eq_false_iff_ne, bne_iff_ne, ne_eq,
    ← UInt8.toNat_inj, UInt8.reduceToNat]
  omega

/-- A printed value starts with such a byte. -/
theorem exists_head {v : Value} {depth : Nat} (h : v.Fits depth) (level : Nat) :
    ∃ b t, v.printAt level = b :: t ∧ startsValue b = true := by
  cases v with
  | null => exact ⟨0x6e, _, rfl, rfl⟩
  | bool b => cases b with
    | true => exact ⟨0x74, _, rfl, rfl⟩
    | false => exact ⟨0x66, _, rfl, rfl⟩
  | number literal =>
    rw [Value.Fits] at h
    obtain ⟨n, rfl⟩ := h
    obtain ⟨b, t, hbt, hb⟩ := exists_head_ofInt n
    exact ⟨b, t, by rw [Value.printAt, hbt], (startsNumber hb).1⟩
  | string s => exact ⟨quote, _, rfl, rfl⟩
  | array vs => cases vs with
    | nil => exact ⟨lbracket, _, rfl, rfl⟩
    | cons v vs => exact ⟨lbracket, _, by rw [Value.printAt]; rfl, rfl⟩
  | object ms => cases ms with
    | nil => exact ⟨lbrace, _, rfl, rfl⟩
    | cons m ms =>
      obtain ⟨key, v⟩ := m
      exact ⟨lbrace, _, by rw [Value.printAt]; rfl, rfl⟩

/-- White space in front of a value is skipped, up to its first byte. -/
theorem skipGap_printAt {v : Value} {depth : Nat} (h : v.Fits depth) (level : Nat) {gap : Bytes}
    (hgap : gap.all isGap = true) (rest : Bytes) :
    ∃ b t, skipGap (gap ++ (v.printAt level ++ rest)) = b :: t ∧ startsValue b = true := by
  obtain ⟨b, t, hbt, hb⟩ := exists_head h level
  have hnogap : isGap b = false := by
    simp only [startsValue, Bool.and_eq_true, Bool.not_eq_true'] at hb
    exact hb.1.1
  refine ⟨b, t ++ rest, ?_, hb⟩
  rw [skipGap_append hgap, hbt, List.cons_append, skipGap_cons hnogap]

theorem skipGap_quoted (key : Bytes) {gap : Bytes} (hgap : gap.all isGap = true) (rest : Bytes) :
    ∃ b t, skipGap (gap ++ (quoted key ++ rest)) = b :: t ∧ startsValue b = true := by
  refine ⟨quote, (Rune.ofBytes key).flatMap quotedRune ++ Bytes.ofString "\"" ++ rest, ?_, rfl⟩
  rw [skipGap_append hgap]
  exact skipGap_cons rfl _

/-- White space and a closing byte end a number. -/
theorem endsNumber_of_gap {gap : Bytes} (hgap : gap.all isGap = true) {b : UInt8} {rest : Bytes}
    (hb : endsNumber [b] = true) : endsNumber (gap ++ b :: rest) = true := by
  cases gap with
  | nil => exact hb
  | cons c gap =>
    rw [List.all_cons, Bool.and_eq_true] at hgap
    have hc := hgap.1
    simp only [isGap, Bool.or_eq_true, beq_iff_eq] at hc
    rcases hc with ((rfl | rfl) | rfl) | rfl <;> rfl

/-! ### Values -/

theorem readValue?_string (s rest : Bytes) (fuel depth : Nat) :
    readValue? (fuel + 1) depth (quoted s ++ rest) = some (.string (Rune.repaired s), rest) := by
  have htext : quoted s ++ rest = quote :: ((Rune.ofBytes s).flatMap quotedRune ++ quote :: rest) := by
    have hquote : Bytes.ofString "\"" = [quote] := rfl
    rw [quoted, hquote]
    simp only [List.append_assoc, List.cons_append, List.nil_append]
  rw [htext, readValue?, skipGap_cons rfl]
  dsimp only
  rw [if_pos rfl, readString?_quoted]
  rfl

theorem readValue?_number (n : Int) {rest : Bytes} (hrest : endsNumber rest = true) (fuel depth : Nat) :
    readValue? (fuel + 1) depth (ofInt n ++ rest) = some (.number (ofInt n), rest) := by
  obtain ⟨b, t, hbt, hb⟩ := exists_head_ofInt n
  obtain ⟨hstart, hquote, hbracket, hbrace, hnull, htrue, hfalse⟩ := startsNumber hb
  have hnogap : isGap b = false := by
    simp only [startsValue, Bool.and_eq_true, Bool.not_eq_true'] at hstart
    exact hstart.1.1
  have hread := readNumber?_ofInt n hrest
  rw [hbt, List.cons_append] at hread
  rw [hbt, List.cons_append, readValue?, skipGap_cons hnogap]
  dsimp only
  rw [if_neg hquote, if_neg hbracket, if_neg hbrace, if_neg hnull, if_neg htrue, if_neg hfalse, hread]
  rfl

/-! ### Arrays and objects -/

/-- The text behind an opening bracket or brace starts with an item. -/
def StartsItem (s : Bytes) : Prop := ∃ b t, skipGap s = b :: t ∧ startsValue b = true

theorem readValue?_array {fuel depth : Nat} {s rest : Bytes} {vs : List Value} (hs : StartsItem s)
    (h : readItems? fuel depth s = some (vs, rest)) :
    readValue? (fuel + 1) (depth + 1) (lbracket :: s) = some (.array vs, rest) := by
  obtain ⟨b, t, hskip, hb⟩ := hs
  rw [readValue?, skipGap_cons rfl]
  dsimp only
  rw [if_neg (by decide), if_pos rfl, hskip]
  split
  · rename_i h0
    cases h0
  · rename_i hclose
    obtain ⟨rfl, -⟩ := List.cons.inj hclose
    exact absurd hb (by decide)
  · rename_i hdepth _
    cases hdepth
    rw [h]
    rfl

theorem readValue?_object {fuel depth : Nat} {s rest : Bytes} {ms : List (Bytes × Value)}
    (hs : StartsItem s) (h : readMembers? fuel depth s = some (ms, rest)) :
    readValue? (fuel + 1) (depth + 1) (lbrace :: s) = some (.object ms, rest) := by
  obtain ⟨b, t, hskip, hb⟩ := hs
  rw [readValue?, skipGap_cons rfl]
  dsimp only
  rw [if_neg (by decide), if_neg (by decide), if_pos rfl, hskip]
  split
  · rename_i h0
    cases h0
  · rename_i hclose
    obtain ⟨rfl, -⟩ := List.cons.inj hclose
    exact absurd hb (by decide)
  · rename_i hdepth _
    cases hdepth
    rw [h]
    rfl

theorem readItems?_last {fuel depth : Nat} {s gap rest : Bytes} {v : Value} (hgap : gap.all isGap = true)
    (h : readValue? fuel depth s = some (v, gap ++ rbracket :: rest)) :
    readItems? (fuel + 1) depth s = some ([v], rest) := by
  rw [readItems?, h]
  dsimp only
  rw [skipGap_append hgap, skipGap_cons rfl]
  rfl

theorem readItems?_more {fuel depth : Nat} {s s' rest : Bytes} {v : Value} {vs : List Value}
    (h : readValue? fuel depth s = some (v, comma :: s'))
    (hmore : readItems? fuel depth s' = some (vs, rest)) :
    readItems? (fuel + 1) depth s = some (v :: vs, rest) := by
  rw [readItems?, h]
  dsimp only
  rw [skipGap_cons rfl]
  show (readItems? fuel depth s').map _ = _
  rw [hmore]
  rfl

/-- A printed key stands in front of a colon and a space. -/
theorem readMembers?_key {fuel depth : Nat} {gap key s : Bytes} (hgap : gap.all isGap = true) :
    readMembers? (fuel + 1) depth (gap ++ (quoted key ++ (Bytes.ofString ": " ++ s))) =
      match readValue? fuel depth s with
      | none => none
      | some (v, s) =>
        match skipGap s with
        | 0x7d :: rest => some ([(Rune.repaired key, v)], rest)
        | 0x2c :: rest =>
          (readMembers? fuel depth rest).map fun (ms, rest) => ((Rune.repaired key, v) :: ms, rest)
        | _ => none := by
  have htext : quoted key ++ (Bytes.ofString ": " ++ s) =
      quote :: ((Rune.ofBytes key).flatMap quotedRune ++ quote :: 0x3a :: ([space] ++ s)) := by
    have hquote : Bytes.ofString "\"" = [quote] := rfl
    have hcolon : Bytes.ofString ": " = [0x3a, space] := rfl
    rw [quoted, hquote, hcolon]
    simp only [List.append_assoc, List.cons_append, List.nil_append]
  have hskip : skipGap (gap ++ (quoted key ++ (Bytes.ofString ": " ++ s))) =
      quote :: ((Rune.ofBytes key).flatMap quotedRune ++ quote :: 0x3a :: ([space] ++ s)) := by
    rw [skipGap_append hgap, htext, skipGap_cons rfl]
  have hmember := readMembers?_of_key fuel depth hskip (readString?_quoted key _) (skipGap_cons rfl _)
  rw [readValue?_gap rfl] at hmember
  exact hmember

theorem readMembers?_last {fuel depth : Nat} {gap gap' key s rest : Bytes} {v : Value}
    (hgap : gap.all isGap = true) (hgap' : gap'.all isGap = true)
    (h : readValue? fuel depth s = some (v, gap' ++ rbrace :: rest)) :
    readMembers? (fuel + 1) depth (gap ++ (quoted key ++ (Bytes.ofString ": " ++ s))) =
      some ([(Rune.repaired key, v)], rest) := by
  rw [readMembers?_key hgap, h]
  dsimp only
  rw [skipGap_append hgap', skipGap_cons rfl]
  rfl

theorem readMembers?_more {fuel depth : Nat} {gap key s s' rest : Bytes} {v : Value}
    {ms : List (Bytes × Value)} (hgap : gap.all isGap = true)
    (h : readValue? fuel depth s = some (v, comma :: s'))
    (hmore : readMembers? fuel depth s' = some (ms, rest)) :
    readMembers? (fuel + 1) depth (gap ++ (quoted key ++ (Bytes.ofString ": " ++ s))) =
      some ((Rune.repaired key, v) :: ms, rest) := by
  rw [readMembers?_key hgap, h]
  dsimp only
  rw [skipGap_cons rfl]
  show (readMembers? fuel depth s').map _ = _
  rw [hmore]
  rfl

mutual

/-- A printed value is read back, whatever follows it. -/
theorem readValue?_printAt : ∀ (v : Value) (level fuel : Nat) {depth : Nat} {rest : Bytes}, v.Fits depth →
    endsNumber rest = true → 2 * (v.printAt level).length ≤ fuel →
    readValue? fuel depth (v.printAt level ++ rest) = some (v.repaired, rest)
  | .null, level, fuel + 1, depth, rest, _, _, _ => by
    rw [Value.printAt, Value.repaired, readValue?]
    rfl
  | .bool b, level, fuel + 1, depth, rest, _, _, _ => by
    cases b <;> rw [Value.printAt, Value.repaired, readValue?] <;> rfl
  | .number literal, level, fuel + 1, depth, rest, h, hrest, _ => by
    rw [Value.Fits] at h
    obtain ⟨n, rfl⟩ := h
    rw [Value.printAt, Value.repaired, readValue?_number n hrest]
  | .string s, level, fuel + 1, depth, rest, _, _, _ => by
    rw [Value.printAt, Value.repaired, readValue?_string]
  | .array [], level, fuel + 1, depth + 1, rest, h, _, _ => by
    rw [Value.printAt, Value.repaired, readValue?]
    rfl
  | .array (v :: vs), level, fuel + 1, depth + 1, rest, h, _, hfuel => by
    rw [Value.Fits, ItemsFit] at h
    obtain ⟨-, hv, hvs⟩ := h
    have htext : Value.printAt level (.array (v :: vs)) ++ rest = lbracket :: (newline (level + 1) ++
        (v.printAt (level + 1) ++ (printItems (level + 1) vs ++ (newline level ++ rbracket :: rest)))) := by
      rw [Value.printAt]
      simp only [List.append_assoc, List.cons_append, List.nil_append]
    rw [htext, Value.repaired, repairedItems]
    refine readValue?_array (skipGap_printAt hv _ (all_isGap_newline _) _)
      (readItems?_printItems v vs (level + 1) fuel hv hvs (all_isGap_newline level) ?_)
    rw [Value.printAt] at hfuel
    simp only [List.length_append, List.length_cons] at hfuel
    omega
  | .object [], level, fuel + 1, depth + 1, rest, h, _, _ => by
    rw [Value.printAt, Value.repaired, readValue?]
    rfl
  | .object ((key, v) :: ms), level, fuel + 1, depth + 1, rest, h, _, hfuel => by
    rw [Value.Fits, MembersFit] at h
    obtain ⟨-, hv, hms⟩ := h
    have htext : Value.printAt level (.object ((key, v) :: ms)) ++ rest = lbrace :: (newline (level + 1) ++
        (quoted key ++ (Bytes.ofString ": " ++ (v.printAt (level + 1) ++ (printMembers (level + 1) ms ++
          (newline level ++ rbrace :: rest)))))) := by
      rw [Value.printAt]
      simp only [List.append_assoc, List.cons_append, List.nil_append]
    rw [htext, Value.repaired, repairedMembers]
    refine readValue?_object (skipGap_quoted key (all_isGap_newline _) _)
      (readMembers?_printMembers key v ms (level + 1) fuel hv hms (all_isGap_newline level) ?_)
    rw [Value.printAt] at hfuel
    simp only [List.length_append, List.length_cons] at hfuel
    omega
  | .array _, _, _, 0, _, h, _, _ => by
    rw [Value.Fits] at h
    exact absurd h.1 (by decide)
  | .object _, _, _, 0, _, h, _, _ => by
    rw [Value.Fits] at h
    exact absurd h.1 (by decide)
  | v, level, 0, _, _, h, _, hfuel => by
    obtain ⟨b, t, hbt, -⟩ := exists_head h level
    rw [hbt, List.length_cons] at hfuel
    omega
termination_by structural _ _ fuel => fuel

/-- The items of an array are read back, up to the bracket. -/
theorem readItems?_printItems : ∀ (v : Value) (vs : List Value) (level fuel : Nat)
    {depth : Nat} {gap rest : Bytes}, v.Fits depth → ItemsFit depth vs → gap.all isGap = true →
    2 * (v.printAt level).length + 2 * (printItems level vs).length + 1 ≤ fuel →
    readItems? fuel depth (newline level ++ (v.printAt level ++ (printItems level vs ++
      (gap ++ rbracket :: rest)))) = some (v.repaired :: repairedItems vs, rest)
  | v, [], level, fuel + 1, depth, gap, rest, hv, _, hgap, hfuel => by
    rw [repairedItems]
    apply readItems?_last hgap
    rw [readValue?_gap (all_isGap_newline level), printItems, List.nil_append]
    exact readValue?_printAt v level fuel hv (endsNumber_of_gap hgap rfl) (by omega)
  | v, w :: vs, level, fuel + 1, depth, gap, rest, hv, hvs, hgap, hfuel => by
    rw [ItemsFit] at hvs
    have htext : printItems level (w :: vs) ++ (gap ++ rbracket :: rest) = comma :: (newline level ++
        (w.printAt level ++ (printItems level vs ++ (gap ++ rbracket :: rest)))) := by
      rw [printItems]
      simp only [List.append_assoc, List.cons_append]
    rw [printItems] at hfuel
    simp only [List.length_append, List.length_cons] at hfuel
    rw [repairedItems, htext]
    refine readItems?_more ?_ (readItems?_printItems w vs level fuel hvs.1 hvs.2 hgap (by omega))
    rw [readValue?_gap (all_isGap_newline level)]
    exact readValue?_printAt v level fuel hv rfl (by omega)
  | _, _, _, 0, _, _, _, _, _, _, hfuel => by omega
termination_by structural _ _ _ fuel => fuel

/-- The members of an object are read back, up to the brace. -/
theorem readMembers?_printMembers : ∀ (key : Bytes) (v : Value) (ms : List (Bytes × Value))
    (level fuel : Nat) {depth : Nat} {gap rest : Bytes}, v.Fits depth → MembersFit depth ms →
    gap.all isGap = true → 2 * (v.printAt level).length + 2 * (printMembers level ms).length + 1 ≤ fuel →
    readMembers? fuel depth (newline level ++ (quoted key ++ (Bytes.ofString ": " ++ (v.printAt level ++
      (printMembers level ms ++ (gap ++ rbrace :: rest)))))) =
        some ((Rune.repaired key, v.repaired) :: repairedMembers ms, rest)
  | key, v, [], level, fuel + 1, depth, gap, rest, hv, _, hgap, hfuel => by
    rw [repairedMembers]
    apply readMembers?_last (all_isGap_newline level) hgap
    rw [printMembers, List.nil_append]
    exact readValue?_printAt v level fuel hv (endsNumber_of_gap hgap rfl) (by omega)
  | key, v, (key', w) :: ms, level, fuel + 1, depth, gap, rest, hv, hms, hgap, hfuel => by
    rw [MembersFit] at hms
    have htext : printMembers level ((key', w) :: ms) ++ (gap ++ rbrace :: rest) = comma ::
        (newline level ++ (quoted key' ++ (Bytes.ofString ": " ++ (w.printAt level ++
          (printMembers level ms ++ (gap ++ rbrace :: rest)))))) := by
      rw [printMembers]
      simp only [List.append_assoc, List.cons_append]
    rw [printMembers] at hfuel
    simp only [List.length_append, List.length_cons] at hfuel
    rw [repairedMembers, htext]
    refine readMembers?_more (all_isGap_newline level) ?_
      (readMembers?_printMembers key' w ms level fuel hms.1 hms.2 hgap (by omega))
    exact readValue?_printAt v level fuel hv rfl (by omega)
  | _, _, _, _, 0, _, _, _, _, _, _, hfuel => by omega
termination_by structural _ _ _ _ fuel => fuel

end

/-- **A text that holds a printed value stands for that value**, with its strings repaired. -/
theorem parse_print {v : Value} (h : v.Fits maxDepth) : parse v.print = some v.repaired := by
  have hread : readValue? (2 * v.print.length + 2) maxDepth (v.print ++ []) = some (v.repaired, []) :=
    readValue?_printAt v 0 _ h rfl (by rw [Value.print]; omega)
  rw [List.append_nil] at hread
  rw [parse, hread]
  rfl

end Spotlight.Json
