import Spotlight.History.Timeline
import Spotlight.Proofs.Json.Reading
import Spotlight.Proofs.Json.RoundTrip

/-!
# The history file is read back

* `History.Entry.repaired` — an entry with all its texts repaired, as it is read back from a file;
* `History.Entry.IsLoaded` — can an entry come out of a file?
* `History.Timeline.parse_text` — a timeline that was written is read back;
* `History.Timeline.isLoaded_of_parse` — the entries that are read can come out of a file, so they stay the
  same when they are written and read again.
-/

namespace Spotlight

open Json

/-- Does the number fit into 64 bits? -/
def Fits64 (n : Int) : Prop := -0x8000000000000000 ≤ n ∧ n < 0x8000000000000000

instance (n : Int) : Decidable (Fits64 n) := inferInstanceAs (Decidable (_ ∧ _))

namespace Json.Reader

/-! ### Reading fields -/

/-- An integer is read back if it fits into 64 bits, and no other is read. -/
theorem int_ofInt (old n : Int) : int old (.number (Bytes.ofInt n)) = if Fits64 n then some n else none := by
  rw [int, int64?_ofInt]
  by_cases h : Fits64 n
  · rw [if_pos h, if_pos (by simpa [Fits64] using h)]
  · rw [if_neg h, if_neg (by simpa [Fits64] using h)]

theorem keeps_int : Keeps Fits64 int := by
  intro old new v hold _ h
  unfold int at h
  split at h
  · cases h
    exact hold
  · unfold int64? at h
    dsimp only at h
    split at h
    · simp at h
    · obtain ⟨hrange, heq⟩ := Option.ite_none_right_eq_some.1 h
      rw [Bool.and_eq_true, decide_eq_true_eq, decide_eq_true_eq, Option.some.inj heq] at hrange
      exact hrange
  · simp at h

/-- A member is read by the field its key stands for. -/
theorem members_cons {σ : Type} {fields : List (Field σ)} {s s' : σ} {key : Bytes} {v : Value}
    {ms : List (Bytes × Value)} {f : Field σ} (hf : field? fields key = some f)
    (hr : f.read s v = some s') : members fields s ((key, v) :: ms) = members fields s' ms := by
  rw [members, hf]
  dsimp only
  rw [hr]
  rfl

/-- A member that cannot be read spoils the record. -/
theorem members_of_none {σ : Type} {fields : List (Field σ)} {s : σ} {key : Bytes} {v : Value}
    {ms : List (Bytes × Value)} {f : Field σ} (hf : field? fields key = some f)
    (hr : f.read s v = none) : members fields s ((key, v) :: ms) = none := by
  rw [members, hf]
  dsimp only
  rw [hr]
  rfl

end Json.Reader

namespace History

/-! ### Entries -/

namespace Entry

/-- The entry with all its texts repaired. -/
def repaired (e : Entry) : Entry :=
  { id := Rune.repaired e.id, timestamp := e.timestamp, path := Rune.repaired e.path,
    backup := Rune.repaired e.backup, name := Rune.repaired e.name, marker := Rune.repaired e.marker,
    anchor := Rune.repaired e.anchor, keyword := Rune.repaired e.keyword, scan := Rune.repaired e.scan,
    hashBefore := Rune.repaired e.hashBefore, hashAfter := Rune.repaired e.hashAfter }

/-- Repairing texts twice does no more than repairing them once. -/
theorem repaired_repaired (e : Entry) : e.repaired.repaired = e.repaired := by
  have htext : ∀ x : Bytes, Rune.repaired (Rune.repaired x) = Rune.repaired x :=
    fun x => Rune.repaired_of_isUtf8 (Bytes.isUtf8_repaired x)
  simp only [repaired, htext]

/-- Can the entry come out of a file? -/
def IsLoaded (e : Entry) : Prop := e.repaired = e ∧ Fits64 e.timestamp

theorem fits_toJson (e : Entry) : e.toJson.Fits 9998 := by
  simp only [toJson, Value.Fits, MembersFit, and_true, true_and]
  exact ⟨by decide, _, rfl⟩

/-- An entry that was written is read back, if its time can be told. -/
theorem read_toJson (old e : Entry) :
    read old e.toJson.repaired = if Fits64 e.timestamp then some e.repaired else none := by
  have hint := fun n => Reader.int_ofInt n e.timestamp
  simp only [toJson, Value.repaired, repairedMembers]
  rw [read, Reader.record]
  refine Eq.trans (Reader.members_cons (by rfl) (by rfl)) ?_
  by_cases h : Fits64 e.timestamp
  · rw [if_pos h]
    refine Eq.trans (Reader.members_cons (by rfl) (by dsimp only; rw [hint, if_pos h]; rfl)) ?_
    iterate 9 refine Eq.trans (Reader.members_cons (by rfl) (by rfl)) ?_
    rfl
  · rw [if_neg h]
    exact Reader.members_of_none (by rfl) (by dsimp only; rw [hint, if_neg h]; rfl)

theorem isLoaded_iff (e : Entry) : e.IsLoaded ↔
    (Rune.repaired e.id = e.id ∧ Rune.repaired e.path = e.path ∧ Rune.repaired e.backup = e.backup ∧
      Rune.repaired e.name = e.name ∧ Rune.repaired e.marker = e.marker ∧
      Rune.repaired e.anchor = e.anchor ∧ Rune.repaired e.keyword = e.keyword ∧
      Rune.repaired e.scan = e.scan ∧ Rune.repaired e.hashBefore = e.hashBefore ∧
      Rune.repaired e.hashAfter = e.hashAfter) ∧ Fits64 e.timestamp := by
  obtain ⟨⟩ := e
  simp [IsLoaded, repaired]

/-- An entry that is read can come out of a file. -/
theorem keeps_read : Reader.Keeps IsLoaded read := by
  apply Reader.keeps_record
  simp only [List.forall_mem_cons, List.not_mem_nil, false_implies, implies_true, and_true]
  refine ⟨?_, ?_, ?_, ?_, ?_, ?_, ?_, ?_, ?_, ?_, ?_⟩
  case refine_2 =>
    refine Reader.keeps_map Reader.keeps_int (fun h => ?_) (fun h hn => ?_)
    · exact h.2
    · rw [isLoaded_iff] at h ⊢
      exact ⟨h.1, hn⟩
  all_goals
    refine Reader.keeps_map Reader.keeps_string (fun h => ?_) (fun h ht => ?_)
    · rw [isLoaded_iff] at h
      simp only [h]
    · rw [isLoaded_iff] at h ⊢
      simp only [h, ht, and_self]

end Entry

/-! ### Timelines -/

namespace Timeline

theorem itemsFit_map (es : List Entry) : ItemsFit 9998 (es.map Entry.toJson) := by
  induction es with
  | nil => trivial
  | cons e es ih => exact ⟨e.fits_toJson, ih⟩

theorem fits_toJson (t : Timeline) : t.toJson.Fits maxDepth := by
  simp only [toJson, Value.Fits, MembersFit, and_true]
  exact ⟨by decide, ⟨by decide, itemsFit_map t.entries⟩, _, rfl⟩

theorem items_map (es olds : List Entry) :
    Reader.items Entry.read {} olds (repairedItems (es.map Entry.toJson)) =
      if ∀ e ∈ es, Fits64 e.timestamp then some (es.map Entry.repaired) else none := by
  induction es generalizing olds with
  | nil => simp [Reader.items, repairedItems]
  | cons e es ih =>
    have hcons : (∀ e' ∈ e :: es, Fits64 e'.timestamp) ↔
        Fits64 e.timestamp ∧ ∀ e' ∈ es, Fits64 e'.timestamp := List.forall_mem_cons
    rw [List.map_cons, repairedItems, Reader.items, Entry.read_toJson, ih]
    by_cases he : Fits64 e.timestamp
    · by_cases hes : ∀ e ∈ es, Fits64 e.timestamp
      · rw [if_pos he, if_pos hes, if_pos (hcons.2 ⟨he, hes⟩)]
        rfl
      · rw [if_pos he, if_neg hes, if_neg fun h => hes (hcons.1 h).2]
        rfl
    · rw [if_neg he, if_neg fun h => he (hcons.1 h).1]
      rfl

/-- **A timeline that was written is read back**, with its texts repaired, if its times and its index can be
told; else nothing is read. -/
theorem parse_text (t : Timeline) :
    parse t.text = if (∀ e ∈ t.entries, Fits64 e.timestamp) ∧ Fits64 t.index then
      some (t.entries.map Entry.repaired, t.index) else none := by
  have hint := fun n => Reader.int_ofInt n t.index
  rw [parse, text, parse_print t.fits_toJson, Option.bind_some]
  simp only [toJson, Value.repaired, repairedMembers]
  rw [read, Reader.record]
  by_cases h : ∀ e ∈ t.entries, Fits64 e.timestamp
  · refine Eq.trans (Reader.members_cons (by rfl)
      (by dsimp only; rw [Reader.list, items_map, if_pos h]; rfl)) ?_
    by_cases hi : Fits64 t.index
    · rw [if_pos ⟨h, hi⟩]
      exact Reader.members_cons (by rfl) (by dsimp only; rw [hint, if_pos hi]; rfl)
    · rw [if_neg fun hboth => hi hboth.2]
      exact Reader.members_of_none (by rfl) (by dsimp only; rw [hint, if_neg hi]; rfl)
  · rw [if_neg fun hboth => h hboth.1]
    exact Reader.members_of_none (by rfl) (by dsimp only; rw [Reader.list, items_map, if_neg h]; rfl)

/-- What is read from a file can come out of a file. -/
theorem isLoaded_of_parse {s : Bytes} {stored : Stored} (h : parse s = some stored) :
    (∀ e ∈ stored.1, e.IsLoaded) ∧ Fits64 stored.2 := by
  obtain ⟨v, hv, hread⟩ := Option.bind_eq_some_iff.1 h
  have hempty : Entry.IsLoaded {} := ⟨rfl, by decide⟩
  have hkeeps : Reader.Keeps (fun s : Stored => (∀ e ∈ s.1, e.IsLoaded) ∧ Fits64 s.2) read := by
    apply Reader.keeps_record
    simp only [List.forall_mem_cons, List.not_mem_nil, false_implies, implies_true, and_true]
    exact ⟨Reader.keeps_map (Reader.keeps_list Entry.keeps_read hempty) (fun h => h.1)
        (fun h hes => ⟨hes, h.2⟩),
      Reader.keeps_map Reader.keeps_int (fun h => h.2) (fun h hn => ⟨h.1, hn⟩)⟩
  exact hkeeps _ _ _ ⟨by simp, by decide⟩ (sound_of_parse hv) hread

end Timeline

end History

end Spotlight
