import Spotlight.Proofs.Text.Rune
import Spotlight.Text.Literal

/-!
# What a literal matches

* `Literal.exists_of_strip?` — the bytes a literal matches, none of them a foreign ASCII byte;
* `Literal.strip?_eq_bytes` — without U+FFFD a literal matches itself only;
* `Literal.exists_of_find?` — where the first occurrence stands.
-/

namespace Spotlight.Literal

/-- U+FFFD does not occur in the text. -/
def IsPlain (lit : Bytes) : Prop := ¬ Rune.replacementBytes <:+: lit

instance (lit : Bytes) : Decidable (IsPlain lit) :=
  inferInstanceAs (Decidable (¬ Rune.replacementBytes <:+: lit))

theorem IsPlain.tail {b : UInt8} {lit : Bytes} (h : IsPlain (b :: lit)) : IsPlain lit :=
  fun hin => h (hin.trans (List.suffix_cons b lit).isInfix)

/-- A literal without U+FFFD is compared byte by byte. -/
theorem strip?_eq_bytes {lit : Bytes} (h : IsPlain lit) (s : Bytes) :
    strip? lit s = Bytes.strip? lit s := by
  fun_induction strip? lit s with
  | case1 => rfl
  | case2 => rfl
  | case3 lit => exact absurd ⟨[], lit, rfl⟩ h
  | case4 lit => exact absurd ⟨[], lit, rfl⟩ h
  | case5 lit b s _ ih => rw [ih h.tail, Bytes.strip?, if_pos rfl]
  | case6 a lit b s _ hab => rw [Bytes.strip?, if_neg hab]

/-- A literal matches itself. -/
theorem strip?_append (lit s : Bytes) : strip? lit (lit ++ s) = some s := by
  generalize ht : lit ++ s = t
  fun_induction strip? lit t with
  | case1 t => rw [← ht, List.nil_append]
  | case2 => simp at ht
  | case3 lit b t r hr ih =>
    obtain ⟨rfl, rfl⟩ := List.cons.inj ht
    exact ih rfl
  | case4 lit b t r hr =>
    obtain ⟨rfl, rfl⟩ := List.cons.inj ht
    exact absurd rfl hr
  | case5 lit b t _ ih => exact ih (List.cons.inj ht).2
  | case6 a lit b t _ hab => exact absurd (List.cons.inj ht).1 hab

theorem strip?_ascii {a : UInt8} (ha : a < 0x80) (lit : Bytes) (b : UInt8) (s : Bytes) :
    strip? (a :: lit) (b :: s) = if a = b then strip? lit s else none := by
  have hne : a ≠ 0xef := by
    rintro rfl
    exact absurd ha (by decide)
  rw [strip?]
  intro _ h
  exact absurd h hne

/-- A malformed byte or U+FFFD itself has no ASCII byte. -/
theorem not_ascii_of_replacement {b : UInt8} {s : Bytes}
    (h : (Rune.first b s).code = Rune.replacement) : ¬ b < 0x80 := by
  intro hb
  rw [Rune.first_of_ascii hb] at h
  have hlt : b.toNat < 256 := b.toNat_lt
  simp only [Rune.replacement] at h
  omega

/-- What a literal matches stands at the head of the text, and its ASCII bytes come from the
literal. -/
theorem exists_of_strip? {lit s rest : Bytes} (h : strip? lit s = some rest) :
    ∃ m, s = m ++ rest ∧ ∀ b ∈ m, b < 0x80 → b ∈ lit := by
  fun_induction strip? lit s with
  | case1 s =>
    obtain rfl := Option.some.inj h
    exact ⟨[], rfl, by simp⟩
  | case2 => simp at h
  | case3 lit b s r hr ih =>
    obtain ⟨m, hm, hmem⟩ := ih h
    refine ⟨r.raw ++ m, ?_, ?_⟩
    · rw [List.append_assoc, ← hm, Rune.raw_append_drop]
    · intro c hc hlt
      rcases List.mem_append.1 hc with hc | hc
      · have hle := Rune.le_of_mem_raw (not_ascii_of_replacement hr) hc
        exact absurd hlt (UInt8.not_lt.2 hle)
      · simp [hmem c hc hlt]
  | case4 => simp at h
  | case5 lit b s _ ih =>
    obtain ⟨m, rfl, hmem⟩ := ih h
    refine ⟨b :: m, rfl, ?_⟩
    intro c hc hlt
    rcases List.mem_cons.1 hc with rfl | hc
    · exact List.mem_cons_self
    · exact List.mem_cons_of_mem b (hmem c hc hlt)
  | case6 => simp at h

/-- A match starts with the ASCII byte the literal starts with. -/
theorem exists_cons_of_strip? {a : UInt8} (ha : a < 0x80) {lit m rest : Bytes}
    (h : strip? (a :: lit) (m ++ rest) = some rest) :
    ∃ m', m = a :: m' ∧ strip? lit (m' ++ rest) = some rest := by
  cases hs : m ++ rest with
  | nil => simp [hs, strip?] at h
  | cons b s =>
    rw [hs, strip?_ascii ha] at h
    split at h
    · rename_i hab
      obtain ⟨m', rfl, -⟩ := exists_of_strip? h
      rw [← hab, ← List.cons_append, List.append_cancel_right_eq] at hs
      exact ⟨m', hs, h⟩
    · simp at h

/-- A literal without U+FFFD matches itself only. -/
theorem eq_of_strip? {lit m rest : Bytes} (hp : IsPlain lit)
    (h : strip? lit (m ++ rest) = some rest) : m = lit := by
  rw [strip?_eq_bytes hp] at h
  exact List.append_cancel_right (Bytes.eq_append_of_strip? h)

/-- Where the first occurrence of a literal stands. -/
theorem exists_of_findFrom? {lit : Bytes} {skip i j : Nat} {s rest : Bytes}
    (h : findFrom? lit skip i s = some (j, rest)) :
    ∃ front, i + front.length = j ∧ ∃ m, s = front ++ m ∧ strip? lit m = some rest := by
  fun_induction findFrom? lit skip i s with
  | case1 skip i =>
    obtain ⟨r, hr, heq⟩ := Option.map_eq_some_iff.1 h
    cases heq
    exact ⟨[], rfl, [], rfl, hr⟩
  | case2 skip i b s ih =>
    obtain ⟨front, hlen, m, rfl, hm⟩ := ih h
    exact ⟨b :: front, by rw [List.length_cons]; omega, m, rfl, hm⟩
  | case3 i b s r hr =>
    cases h
    exact ⟨[], rfl, b :: s, rfl, hr⟩
  | case4 i b s hnone ih =>
    obtain ⟨front, hlen, m, rfl, hm⟩ := ih h
    exact ⟨b :: front, by rw [List.length_cons]; omega, m, rfl, hm⟩

theorem exists_of_find? {lit s rest : Bytes} {i : Nat} (h : find? lit s = some (i, rest)) :
    ∃ front m, s = front ++ m ∧ front.length = i ∧ strip? lit m = some rest := by
  obtain ⟨front, hlen, m, hs, hm⟩ := exists_of_findFrom? h
  exact ⟨front, m, hs, by omega, hm⟩

end Spotlight.Literal
