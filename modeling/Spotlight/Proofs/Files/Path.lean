import Spotlight.Files.Path
import Spotlight.Proofs.Text.Pieces

/-!
# Paths and their components

* `Path.IsName` — a component that stands for an entry of a folder;
* `Path.isName_of_mem_components` — an absolute path has no other components;
* `Path.components_ofComponents`, `Path.join_eq` — absolute paths are lists of names.
-/

namespace Spotlight

namespace Path

open Bytes

/-! ### Names -/

/-- Does the component stand for an entry of a folder? -/
structure IsName (c : Bytes) : Prop where
  ne_nil : c ≠ []
  no_slash : slash ∉ c
  ne_dot : c ≠ dot
  ne_dotdot : c ≠ dotdot

instance (c : Bytes) : Decidable (IsName c) :=
  decidable_of_iff (c ≠ [] ∧ slash ∉ c ∧ c ≠ dot ∧ c ≠ dotdot)
    ⟨fun ⟨h₁, h₂, h₃, h₄⟩ => ⟨h₁, h₂, h₃, h₄⟩, fun ⟨h₁, h₂, h₃, h₄⟩ => ⟨h₁, h₂, h₃, h₄⟩⟩

theorem IsName.step {c : Bytes} (h : IsName c) (rooted : Bool) (done : List Bytes) :
    step rooted done c = c :: done := by
  have hself : ¬ (c.isEmpty || c = dot) = true := by
    simp [h.ne_nil, h.ne_dot]
  unfold Path.step
  rw [if_neg hself, if_neg h.ne_dotdot]

/-- Names are added one after the other. -/
theorem foldl_step {cs : List Bytes} (h : ∀ c ∈ cs, IsName c) (rooted : Bool) (done : List Bytes) :
    cs.foldl (step rooted) done = cs.reverse ++ done := by
  induction cs generalizing done with
  | nil => rfl
  | cons c cs ih =>
    rw [List.foldl_cons, (h c (by simp)).step, ih (fun d hd => h d (List.mem_cons_of_mem _ hd)),
      List.reverse_cons, List.append_assoc, List.singleton_append]

/-- From the root on, every step leaves names. -/
theorem isName_of_mem_step {done : List Bytes} (h : ∀ c ∈ done, IsName c) {piece : Bytes}
    (hpiece : slash ∉ piece) : ∀ c ∈ step true done piece, IsName c := by
  unfold step
  split
  · exact h
  · rename_i hself
    split
    · split
      · exact h
      · rename_i d ds
        split
        · rename_i hd
          exact absurd hd (h d (by simp)).ne_dotdot
        · exact fun c hc => h c (List.mem_cons_of_mem _ hc)
    · rename_i hdotdot
      simp only [Bool.or_eq_true, List.isEmpty_iff, decide_eq_true_eq, not_or] at hself
      intro c hc
      rcases List.mem_cons.1 hc with rfl | hc
      · exact ⟨hself.1, hpiece, hself.2, hdotdot⟩
      · exact h c hc

/-- The components of an absolute path are names. -/
theorem isName_of_mem_components {p : Bytes} (hp : isAbsolute p = true) :
    ∀ c ∈ components p, IsName c := by
  have hfold : ∀ (pieces : List Bytes) {done : List Bytes}, (∀ piece ∈ pieces, slash ∉ piece) →
      (∀ c ∈ done, IsName c) → ∀ c ∈ pieces.foldl (step true) done, IsName c := by
    intro pieces
    induction pieces with
    | nil => exact fun _ hdone => hdone
    | cons piece pieces ih =>
      intro done hpieces hdone
      exact ih (fun q hq => hpieces q (List.mem_cons_of_mem _ hq))
        (isName_of_mem_step hdone (hpieces piece (by simp)))
  intro c hc
  rw [components, hp, List.mem_reverse] at hc
  exact hfold _ (fun piece hpiece => not_mem_of_mem_splitOn hpiece) (by simp) c hc

/-! ### Absolute paths -/

@[simp] theorem isAbsolute_ofComponents (cs : List Bytes) : isAbsolute (ofComponents true cs) = true := by
  simp [ofComponents, isAbsolute]

theorem isAbsolute_append {p : Bytes} (hp : isAbsolute p = true) (q : Bytes) :
    isAbsolute (p ++ q) = true := by
  cases p with
  | nil => simp [isAbsolute] at hp
  | cons b p => exact hp

/-- The pieces of an absolute path that is given by names. -/
theorem splitOn_ofComponents {cs : List Bytes} (hne : cs ≠ []) (h : ∀ c ∈ cs, IsName c) :
    splitOn slash (ofComponents true cs) = [] :: cs := by
  have hpieces : List.splitOn slash (joinWith [slash] cs) = cs :=
    List.splitOn_intercalate slash (fun c hc => (h c hc).no_slash) hne
  rw [ofComponents, if_pos rfl, splitOn, List.splitOn_cons_eq_if_modifyHead, if_pos (beq_self_eq_true slash), hpieces]

theorem getLast?_ofComponents {cs : List Bytes} (hne : cs ≠ []) (h : ∀ c ∈ cs, IsName c) :
    (ofComponents true cs).getLast? ≠ some slash := by
  intro hlast
  obtain ⟨x, hx⟩ := List.getLast?_eq_some_iff.1 hlast
  have hpieces := splitOn_ofComponents hne h
  rw [hx, splitOn, List.splitOn_append_cons_self, List.splitOn_nil] at hpieces
  have hempty : [] ∈ cs := by
    have hgetLast := congrArg List.getLast? hpieces
    rw [List.getLast?_cons_of_ne_nil hne] at hgetLast
    exact List.mem_of_getLast? (hgetLast.symm.trans (List.getLast?_concat ..))
  exact (h [] hempty).ne_nil rfl

theorem components_ofComponents {cs : List Bytes} (h : ∀ c ∈ cs, IsName c) :
    components (ofComponents true cs) = cs := by
  cases cs with
  | nil => rfl
  | cons c cs =>
    have hself : step true [] [] = [] := rfl
    rw [components, isAbsolute_ofComponents, splitOn_ofComponents (by simp) h, List.foldl_cons, hself,
      foldl_step h, List.append_nil, List.reverse_reverse]

/-- One more name behind an absolute path. -/
theorem components_append {p c : Bytes} (hp : isAbsolute p = true) (hc : IsName c) :
    components (p ++ slash :: c) = components p ++ [c] := by
  rw [components, components, isAbsolute_append hp, hp, splitOn, List.splitOn_append_cons_self,
    List.splitOn_eq_singleton hc.no_slash, List.foldl_append, List.foldl_cons, List.foldl_nil, hc.step, List.reverse_cons]

theorem clean_append {p c : Bytes} (hp : isAbsolute p = true) (hc : IsName c) :
    clean (p ++ slash :: c) = ofComponents true (components p ++ [c]) := by
  rw [clean, isAbsolute_append hp, components_append hp hc]

theorem join_eq {p c : Bytes} (hp : isAbsolute p = true) (hc : IsName c) :
    join p c = ofComponents true (components p ++ [c]) := by
  have hne : p.isEmpty = false := by
    cases p with
    | nil => simp [isAbsolute] at hp
    | cons b p => rfl
  rw [join, hne, if_neg (by simp), clean_append hp hc]

end Path

end Spotlight
