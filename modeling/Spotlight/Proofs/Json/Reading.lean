import Spotlight.Proofs.Json.Numbers
import Spotlight.Proofs.Text.Utf8

/-!
# What is read from JSON

* `Json.Value.Sound` — are all strings of a value well formed, and its numbers numerals?
* `Json.sound_of_parse` — a value that is read is sound;
* `Json.Reader.Keeps` — does a reader keep a property of what it reads over?
* `Json.Reader.keeps_record`, `Json.Reader.keeps_list` — a record is read field by field, a list item by item.
-/

namespace Spotlight.Json

open Bytes

/-! ### Numbers -/

/-- Is `b` one of the bytes that numbers are written in? -/
def isNumeral (b : UInt8) : Bool := isDigit b || b == 0x2b || b == 0x2d || b == 0x2e || b == 0x45 || b == 0x65

/-- Does the text begin with `x`, written in numerals, in front of `rest`? -/
def Numeral (s x rest : Bytes) : Prop := s = x ++ rest ∧ x.all isNumeral = true

theorem Numeral.empty (s : Bytes) : Numeral s [] s := ⟨rfl, rfl⟩

theorem Numeral.cons {s x rest : Bytes} {b : UInt8} (hb : isNumeral b = true) (h : Numeral s x rest) :
    Numeral (b :: s) (b :: x) rest := by
  refine ⟨congrArg (b :: ·) h.1, ?_⟩
  rw [List.all_cons, hb, h.2]
  rfl

theorem Numeral.append {s x y rest rest' : Bytes} (h : Numeral s x rest) (h' : Numeral rest y rest') :
    Numeral s (x ++ y) rest' := by
  refine ⟨?_, ?_⟩
  · rw [h.1, h'.1, List.append_assoc]
  · rw [List.all_append, h.2, h'.2]
    rfl

theorem Numeral.ne_nil {s x rest : Bytes} (h : Numeral s x rest) (hrest : rest ≠ []) : s ≠ [] := by
  rw [h.1]
  simp [hrest]

theorem numeral_of_digits? {s ds rest : Bytes} (h : digits? s = some (ds, rest)) : Numeral s ds rest := by
  obtain ⟨hs, -, hds, -⟩ := digits?_eq_some_iff.1 h
  refine ⟨hs, List.all_eq_true.2 fun b hb => ?_⟩
  rw [isNumeral, List.all_eq_true.1 hds b hb]
  rfl

theorem numeral_of_whole? {s ds rest : Bytes} (h : whole? s = some (ds, rest)) : Numeral s ds rest := by
  unfold whole? at h
  split at h
  · cases h
    exact ⟨rfl, rfl⟩
  · exact numeral_of_digits? h

theorem numeral_of_fraction? {s ds rest : Bytes} (h : fraction? s = some (ds, rest)) : Numeral s ds rest := by
  unfold fraction? at h
  split at h
  · obtain ⟨⟨ds, r⟩, hds, heq⟩ := Option.map_eq_some_iff.1 h
    cases heq
    exact (numeral_of_digits? hds).cons rfl
  · cases h
    exact .empty s

theorem numeral_of_exponent? {s ds rest : Bytes} (h : exponent? s = some (ds, rest)) : Numeral s ds rest := by
  unfold exponent? at h
  split at h
  · cases h
    exact .empty []
  · rename_i e s
    split at h
    · rename_i he
      have he : isNumeral e = true := by
        rw [Bool.or_eq_true, decide_eq_true_eq, decide_eq_true_eq] at he
        rcases he with rfl | rfl <;> rfl
      split at h
      · simp at h
      · rename_i c s
        split at h
        · rename_i hc
          have hc : isNumeral c = true := by
            rw [Bool.or_eq_true, decide_eq_true_eq, decide_eq_true_eq] at hc
            rcases hc with rfl | rfl <;> rfl
          obtain ⟨⟨ds, r⟩, hds, heq⟩ := Option.map_eq_some_iff.1 h
          cases heq
          exact ((numeral_of_digits? hds).cons hc).cons he
        · obtain ⟨⟨ds, r⟩, hds, heq⟩ := Option.map_eq_some_iff.1 h
          cases heq
          exact (numeral_of_digits? hds).cons he
    · cases h
      exact .empty _

theorem numeral_sign (s : Bytes) : Numeral s (sign s).1 (sign s).2 := by
  unfold sign
  split
  · exact ⟨rfl, rfl⟩
  · exact .empty s

/-- A number that is read stands at the head of the text, in numerals. -/
theorem numeral_of_readNumber? {s n rest : Bytes} (h : readNumber? s = some (n, rest)) : Numeral s n rest := by
  obtain ⟨⟨ds, s₁⟩, hwhole, h⟩ := Option.bind_eq_some_iff.1 h
  obtain ⟨⟨frac, s₂⟩, hfraction, h⟩ := Option.bind_eq_some_iff.1 h
  obtain ⟨⟨exp, s₃⟩, hexponent, h⟩ := Option.bind_eq_some_iff.1 h
  cases h
  exact (((numeral_sign s).append (numeral_of_whole? hwhole)).append (numeral_of_fraction? hfraction)).append
    (numeral_of_exponent? hexponent)

theorem numeral_of_isNumber {t : Bytes} (h : isNumber t = true) : t.all isNumeral = true := by
  unfold isNumber at h
  split at h
  · rename_i n hn
    have hnumeral := numeral_of_readNumber? hn
    rw [hnumeral.1, List.append_nil]
    exact hnumeral.2
  · simp at h

/-! ### Values -/

mutual

/-- Are all strings of the value well formed, and its numbers numerals? -/
def Value.Sound : Value → Prop
  | .number literal => literal.all isNumeral = true
  | .string t => Rune.repaired t = t
  | .array vs => ItemsSound vs
  | .object ms => MembersSound ms
  | _ => True

/-- Are all items of an array sound? -/
def ItemsSound : List Value → Prop
  | [] => True
  | v :: vs => v.Sound ∧ ItemsSound vs

/-- Are all members of an object sound? -/
def MembersSound : List (Bytes × Value) → Prop
  | [] => True
  | (_, v) :: ms => v.Sound ∧ MembersSound ms

end

theorem repaired_of_readString? {s t rest : Bytes} (h : readString? s = some (t, rest)) :
    Rune.repaired t = t := by
  obtain ⟨⟨ps, r⟩, -, heq⟩ := Option.map_eq_some_iff.1 h
  cases heq
  exact Rune.repaired_of_isUtf8 (isUtf8_repaired _)

mutual

/-- A value that is read is sound. -/
theorem sound_of_readValue? : ∀ (fuel : Nat) {depth : Nat} {s rest : Bytes} {v : Value},
    readValue? fuel depth s = some (v, rest) → v.Sound
  | 0, depth, s, rest, v, h => by simp [readValue?] at h
  | fuel + 1, depth, s, rest, v, h => by
    rw [readValue?] at h
    split at h
    · simp at h
    · rename_i b s _
      split at h
      · obtain ⟨⟨t, r⟩, hread, heq⟩ := Option.map_eq_some_iff.1 h
        cases heq
        exact repaired_of_readString? hread
      · split at h
        · split at h
          · simp at h
          · cases h
            trivial
          · obtain ⟨⟨vs, r⟩, hread, heq⟩ := Option.map_eq_some_iff.1 h
            cases heq
            exact sound_of_readItems? fuel hread
        · split at h
          · split at h
            · simp at h
            · cases h
              trivial
            · obtain ⟨⟨ms, r⟩, hread, heq⟩ := Option.map_eq_some_iff.1 h
              cases heq
              exact sound_of_readMembers? fuel hread
          · -- the other values are words, or else numbers
            split at h
            · obtain ⟨r, -, heq⟩ := Option.map_eq_some_iff.1 h
              cases heq
              trivial
            · split at h
              · obtain ⟨r, -, heq⟩ := Option.map_eq_some_iff.1 h
                cases heq
                trivial
              · split at h
                · obtain ⟨r, -, heq⟩ := Option.map_eq_some_iff.1 h
                  cases heq
                  trivial
                · obtain ⟨⟨n, r⟩, hread, heq⟩ := Option.map_eq_some_iff.1 h
                  cases heq
                  exact (numeral_of_readNumber? hread).2

/-- Items that are read are sound. -/
theorem sound_of_readItems? : ∀ (fuel : Nat) {depth : Nat} {s rest : Bytes} {vs : List Value},
    readItems? fuel depth s = some (vs, rest) → ItemsSound vs
  | 0, depth, s, rest, v, h => by simp [readItems?] at h
  | fuel + 1, depth, s, rest, vs, h => by
    rw [readItems?] at h
    split at h
    · simp at h
    · rename_i v s hv
      have hsound := sound_of_readValue? fuel hv
      split at h
      · cases h
        exact ⟨hsound, trivial⟩
      · obtain ⟨⟨ws, r⟩, hread, heq⟩ := Option.map_eq_some_iff.1 h
        cases heq
        exact ⟨hsound, sound_of_readItems? fuel hread⟩
      · simp at h

/-- Members that are read are sound. -/
theorem sound_of_readMembers? : ∀ (fuel : Nat) {depth : Nat} {s rest : Bytes}
    {ms : List (Bytes × Value)}, readMembers? fuel depth s = some (ms, rest) → MembersSound ms
  | 0, depth, s, rest, v, h => by simp [readMembers?] at h
  | fuel + 1, depth, s, rest, ms, h => by
    rw [readMembers?] at h
    split at h
    · split at h
      · simp at h
      · split at h
        · split at h
          · simp at h
          · rename_i v s hv
            have hsound := sound_of_readValue? fuel hv
            split at h
            · cases h
              exact ⟨hsound, trivial⟩
            · obtain ⟨⟨ws, r⟩, hread, heq⟩ := Option.map_eq_some_iff.1 h
              cases heq
              exact ⟨hsound, sound_of_readMembers? fuel hread⟩
            · simp at h
        · simp at h
    · simp at h

end

theorem sound_of_parse {s : Bytes} {v : Value} (h : parse s = some v) : v.Sound := by
  unfold parse at h
  split at h
  · rename_i w rest hread
    split at h
    · cases h
      exact sound_of_readValue? _ hread
    · simp at h
  · simp at h

namespace Reader

/-! ### What a reader keeps -/

/-- Does the reader keep a property of what it reads over, for sound values? -/
def Keeps {α : Type} (P : α → Prop) (read : Reader α) : Prop :=
  ∀ (old new : α) (v : Value), P old → v.Sound → read old v = some new → P new

theorem keeps_true {α : Type} (read : Reader α) : Keeps (fun _ => True) read := fun _ _ _ _ _ _ => trivial

theorem keeps_string : Keeps (fun t => Rune.repaired t = t) string := by
  intro old new v hold hv h
  unfold string at h
  split at h
  · cases h
    exact hold
  · cases h
    exact hv
  · simp at h

/-- A number is read from a number, or from a string that holds one. -/
theorem keeps_number : Keeps (fun t => t.all isNumeral = true) number := by
  intro old new v hold hv h
  unfold number at h
  split at h
  · cases h
    exact hold
  · cases h
    exact hv
  · obtain ⟨hnumber, heq⟩ := Option.ite_none_right_eq_some.1 h
    cases heq
    exact numeral_of_isNumber hnumber
  · simp at h

theorem keeps_items {α : Type} {P : α → Prop} {item : Reader α} {fresh : α} (hitem : Keeps P item)
    (hfresh : P fresh) {olds news : List α} {vs : List Value} (holds : ∀ a ∈ olds, P a)
    (hvs : ItemsSound vs) (h : items item fresh olds vs = some news) : ∀ a ∈ news, P a := by
  induction vs generalizing olds news with
  | nil =>
    cases h
    simp
  | cons v vs ih =>
    obtain ⟨a, ha, h⟩ := Option.bind_eq_some_iff.1 h
    obtain ⟨as, has, h⟩ := Option.bind_eq_some_iff.1 h
    cases h
    have hhead : P (olds.headD fresh) := by
      cases olds with
      | nil => exact hfresh
      | cons b olds => exact holds b (by simp)
    have hrest := ih (fun b hb => holds b (List.mem_of_mem_tail hb)) hvs.2 has
    intro b hb
    rcases List.mem_cons.1 hb with rfl | hb
    · exact hitem _ _ _ hhead hvs.1 ha
    · exact hrest b hb

theorem keeps_list {α : Type} {P : α → Prop} {item : Reader α} {fresh : α} (hitem : Keeps P item)
    (hfresh : P fresh) : Keeps (fun as : List α => ∀ a ∈ as, P a) (list item fresh) := by
  intro olds news v holds hv h
  unfold list at h
  split at h
  · cases h
    simp
  · exact keeps_items hitem hfresh holds hv h
  · simp at h

/-- A field of a record is read over what it holds. -/
theorem keeps_map {α σ : Type} {P : σ → Prop} {Q : α → Prop} {read : Reader α} (hread : Keeps Q read)
    {get : σ → α} {set : σ → α → σ} (hget : ∀ {s}, P s → Q (get s))
    (hset : ∀ {s a}, P s → Q a → P (set s a)) : Keeps P fun s v => (read (get s) v).map (set s) := by
  intro old new v hold hv h
  obtain ⟨a, ha, rfl⟩ := Option.map_eq_some_iff.1 h
  exact hset hold (hread _ _ _ (hget hold) hv ha)

theorem mem_of_field? {σ : Type} {fields : List (Field σ)} {key : Bytes} {f : Field σ}
    (h : field? fields key = some f) : f ∈ fields := by
  rcases Option.or_eq_some_iff.1 h with h | ⟨-, h⟩
  · exact List.mem_of_find?_eq_some h
  · exact List.mem_of_find?_eq_some h

theorem keeps_record {σ : Type} {P : σ → Prop} {fields : List (Field σ)}
    (hfields : ∀ f ∈ fields, Keeps P f.read) : Keeps P (record fields) := by
  have hmembers : ∀ (ms : List (Bytes × Value)) {old new : σ}, P old → MembersSound ms →
      members fields old ms = some new → P new := by
    intro ms
    induction ms with
    | nil =>
      intro old new hold _ h
      cases h
      exact hold
    | cons m ms ih =>
      obtain ⟨key, v⟩ := m
      intro old new hold hms h
      rw [members] at h
      split at h
      · exact ih hold hms.2 h
      · rename_i f hf
        obtain ⟨mid, hread, h⟩ := Option.bind_eq_some_iff.1 h
        exact ih (hfields f (mem_of_field? hf) _ _ _ hold hms.1 hread) hms.2 h
  intro old new v hold hv h
  unfold record at h
  split at h
  · cases h
    exact hold
  · exact hmembers _ hold hv h
  · simp at h

end Reader

end Spotlight.Json
