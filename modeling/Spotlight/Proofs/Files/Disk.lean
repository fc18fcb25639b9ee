import Spotlight.Files.Disk
import Spotlight.Proofs.Files.Path

/-!
# What file operations change

* `Files.Disk.get?_set`, `Files.Disk.get?_erase` — one place changes, the others stay;
* `Files.Disk.isFolderAt` — which places are folders. The place a path leads to depends on nothing else
  (`Files.Disk.locate_of_folders`);
* `Files.Disk.locate_ofComponents` — a path that is given by names leads to the place with these names;
* `Files.Disk.read_eq_ok_iff`, `Files.Disk.slot_eq_ok_iff`, `Files.Disk.exists_of_overwrite`,
  `Files.Disk.exists_of_replace`, `Files.Disk.exists_of_remove` — what the operations on paths do to places;
* `Files.Disk.AgreeOff` — two disks that differ in one file;
* `Files.Disk.Evolves`, `Files.Disk.content?` — folders stay, and what the files hold;
* `Files.Disk.Replaceable` — can the file at a place be written in one step?
* `Files.Disk.paved_of_makeFolders` — folders are made on the way, and no file changes.
-/

namespace Spotlight.Files.Disk

open Bytes

/-! ### Places -/

@[simp] theorem get?_nil (d : Disk) : d.get? [] = some (.folder folderMode) := rfl

theorem get?_of_ne_nil (d : Disk) {p : Place} (h : p ≠ []) : d.get? p = d.entries.lookup p := by
  cases p with
  | nil => exact absurd rfl h
  | cons c p => rfl

theorem lookup_filter (l : List (Place × Entry)) (p q : Place) :
    (l.filter (·.1 != p)).lookup q = if q = p then none else l.lookup q := by
  induction l with
  | nil => simp
  | cons x l ih =>
    obtain ⟨r, e⟩ := x
    rw [List.filter_cons]
    by_cases hr : r = p
    · rw [if_neg (by simp [hr]), ih]
      by_cases hq : q = p
      · rw [if_pos hq, if_pos hq]
      · have hqr : (q == r) = false := beq_false_of_ne (by rw [hr]; exact hq)
        rw [if_neg hq, if_neg hq, List.lookup_cons, hqr]
    · rw [if_pos (by simp [hr]), List.lookup_cons, ih]
      by_cases hq : q = p
      · have hqr : (q == r) = false := beq_false_of_ne (by rw [hq]; exact Ne.symm hr)
        rw [if_pos hq, if_pos hq, hqr]
      · rw [if_neg hq, if_neg hq, List.lookup_cons]

/-- What stands at a place after something was put somewhere. -/
theorem get?_set (d : Disk) {p : Place} (hp : p ≠ []) (e : Entry) (q : Place) :
    (d.set p e).get? q = if q = p then some e else d.get? q := by
  by_cases hq : q = []
  · rw [hq, if_neg (Ne.symm hp), get?_nil, get?_nil]
  · rw [get?_of_ne_nil _ hq, get?_of_ne_nil _ hq, set]
    by_cases heq : q = p
    · rw [if_pos heq, heq, List.lookup_cons, beq_self_eq_true]
    · rw [if_neg heq, List.lookup_cons, beq_false_of_ne heq, lookup_filter, if_neg heq]

theorem get?_set_self (d : Disk) {p : Place} (hp : p ≠ []) (e : Entry) : (d.set p e).get? p = some e := by
  rw [get?_set d hp, if_pos rfl]

theorem get?_set_of_ne (d : Disk) {p q : Place} (hp : p ≠ []) (e : Entry) (h : q ≠ p) :
    (d.set p e).get? q = d.get? q := by
  rw [get?_set d hp, if_neg h]

/-- What stands at a place after something was taken away. -/
theorem get?_erase (d : Disk) {p : Place} (hp : p ≠ []) (q : Place) :
    (d.erase p).get? q = if q = p then none else d.get? q := by
  by_cases hq : q = []
  · rw [hq, if_neg (Ne.symm hp), get?_nil, get?_nil]
  · rw [get?_of_ne_nil _ hq, get?_of_ne_nil _ hq, erase]
    exact lookup_filter d.entries p q

/-! ### Folders and paths -/

/-- Is the place a folder? -/
def isFolderAt (d : Disk) (p : Place) : Bool :=
  match d.get? p with
  | some (.folder _) => true
  | _ => false

@[simp] theorem isFolderAt_nil (d : Disk) : d.isFolderAt [] = true := rfl

theorem ne_nil_of_isFolderAt {d : Disk} {p : Place} (h : d.isFolderAt p = false) : p ≠ [] := by
  rintro rfl
  simp at h

theorem isFolderAt_of_get? {d d' : Disk} {p : Place} (h : d'.get? p = d.get? p) :
    d'.isFolderAt p = d.isFolderAt p := by
  rw [isFolderAt, isFolderAt, h]

theorem isFolderAt_of_file {d : Disk} {p : Place} {mode : Nat} {content : Bytes}
    (h : d.get? p = some (.file mode content)) : d.isFolderAt p = false := by
  rw [isFolderAt, h]

/-- A file in a place that is no folder leaves the folders as they are. -/
theorem isFolderAt_set_file (d : Disk) {p : Place} (hp : d.isFolderAt p = false) (mode : Nat)
    (content : Bytes) (q : Place) : (d.set p (.file mode content)).isFolderAt q = d.isFolderAt q := by
  have hne := ne_nil_of_isFolderAt hp
  by_cases hq : q = p
  · rw [hq, hp, isFolderAt, get?_set_self d hne]
  · exact isFolderAt_of_get? (get?_set_of_ne d hne _ hq)

/-- Where a walk ends depends on the folders alone. -/
theorem walk_of_folders {d d' : Disk} (h : ∀ p, d.isFolderAt p = true → d'.isFolderAt p = true)
    {cs : List Bytes} {p q : Place} (hwalk : d.walk cs p = .ok q) : d'.walk cs p = .ok q := by
  induction cs generalizing p with
  | nil => exact hwalk
  | cons c cs ih =>
    rw [walk] at hwalk ⊢
    cases hget : d.get? p with
    | none => rw [hget] at hwalk; simp at hwalk
    | some e => cases e with
      | file mode content => rw [hget] at hwalk; simp at hwalk
      | folder mode =>
        have hfolder := h p (by rw [isFolderAt, hget])
        unfold isFolderAt at hfolder
        rw [hget] at hwalk
        dsimp only at hwalk
        split at hfolder
        · rename_i mode' hget'
          rw [hget']
          dsimp only
          split at hwalk
          · rw [if_pos ‹_›]
            exact ih hwalk
          · rw [if_neg ‹_›]
            split at hwalk
            · rw [if_pos ‹_›]
              exact ih hwalk
            · rw [if_neg ‹_›]
              split at hwalk
              · simp at hwalk
              · rw [if_neg ‹_›]
                exact ih hwalk
        · simp at hfolder

/-- The place a path leads to depends on the folders alone. -/
theorem locate_of_folders {d d' : Disk} (hhere : d'.here = d.here)
    (h : ∀ p, d.isFolderAt p = true → d'.isFolderAt p = true) {path : Bytes} {p : Place}
    (hlocate : d.locate path = .ok p) : d'.locate path = .ok p := by
  unfold locate at hlocate ⊢
  split at hlocate
  · simp at hlocate
  · rw [if_neg ‹_›]
    split at hlocate
    · simp at hlocate
    · rw [if_neg ‹_›]
      split at hlocate
      · simp at hlocate
      · rw [if_neg ‹_›, hhere]
        exact walk_of_folders h hlocate

/-- A walk by names ends where they lead. -/
theorem eq_of_walk {d : Disk} {cs : List Bytes} (h : ∀ c ∈ cs, Path.IsName c) {p q : Place}
    (hwalk : d.walk cs p = .ok q) : q = p ++ cs := by
  induction cs generalizing p with
  | nil =>
    cases hwalk
    rw [List.append_nil]
  | cons c cs ih =>
    have hc := h c (by simp)
    rw [walk] at hwalk
    split at hwalk
    · cases hwalk
    · cases hwalk
    · rw [if_neg (by simp [hc.ne_nil, hc.ne_dot]), if_neg hc.ne_dotdot] at hwalk
      split at hwalk
      · cases hwalk
      · rw [ih (fun e he => h e (List.mem_cons_of_mem _ he)) hwalk, List.append_assoc]
        rfl

/-- A walk by names through folders does not fail, unless a name is too long. -/
theorem walk_of_isFolderAt {d : Disk} {cs : List Bytes} (h : ∀ c ∈ cs, Path.IsName c) {p : Place}
    (hfolders : ∀ n < cs.length, d.isFolderAt (p ++ cs.take n) = true) :
    d.walk cs p = .ok (p ++ cs) ∨ d.walk cs p = .error .tooLong := by
  induction cs generalizing p with
  | nil => exact Or.inl (by rw [walk, List.append_nil])
  | cons c cs ih =>
    have hc := h c (by simp)
    have hfolder := hfolders 0 (by simp)
    rw [List.take_zero, List.append_nil] at hfolder
    unfold isFolderAt at hfolder
    split at hfolder
    · rename_i mode hget
      rw [walk, hget]
      dsimp only
      rw [if_neg (by simp [hc.ne_nil, hc.ne_dot]), if_neg hc.ne_dotdot]
      split
      · exact Or.inr rfl
      · have hsplit : p ++ c :: cs = p ++ [c] ++ cs := List.append_cons p c cs
        rw [hsplit]
        refine ih (fun e he => h e (List.mem_cons_of_mem _ he)) fun n hn => ?_
        have hnext := hfolders (n + 1) (by simpa using hn)
        rwa [List.take_succ_cons, List.append_cons] at hnext
    · simp at hfolder

/-- A path that is given by names leads to the place with these names. -/
theorem locate_ofComponents {d : Disk} {cs : List Bytes} (hne : cs ≠ []) (h : ∀ c ∈ cs, Path.IsName c)
    {p : Place} (hlocate : d.locate (Path.ofComponents true cs) = .ok p) : p = cs := by
  unfold locate at hlocate
  split at hlocate
  · cases hlocate
  · split at hlocate
    · cases hlocate
    · split at hlocate
      · cases hlocate
      · rw [Path.splitOn_ofComponents hne h, Path.isAbsolute_ofComponents, if_pos rfl] at hlocate
        exact eq_of_walk h hlocate

/-- Through folders it leads there, or it is no good as a path at all. -/
theorem locate_of_isFolderAt {d : Disk} {cs : List Bytes} (hne : cs ≠ []) (h : ∀ c ∈ cs, Path.IsName c)
    (hfolders : ∀ n < cs.length, d.isFolderAt (cs.take n) = true) :
    d.locate (Path.ofComponents true cs) = .ok cs ∨
      ∃ r, d.locate (Path.ofComponents true cs) = .error r ∧ r ≠ .missing := by
  unfold locate
  split
  · exact Or.inr ⟨.badName, rfl, by decide⟩
  · split
    · simp [Path.ofComponents] at *
    · split
      · exact Or.inr ⟨.tooLong, rfl, by decide⟩
      · rw [Path.splitOn_ofComponents hne h, Path.isAbsolute_ofComponents, if_pos rfl]
        rcases walk_of_isFolderAt h (p := []) (by simpa using hfolders) with hwalk | hwalk
        · exact Or.inl hwalk
        · exact Or.inr ⟨.tooLong, hwalk, by decide⟩

/-! ### Operations on paths -/

/-- The content of a file is what stands where its path leads. -/
theorem read_eq_ok_iff {d : Disk} {path content : Bytes} :
    d.read path = .ok content ↔
      ∃ p mode, d.locate path = .ok p ∧ d.get? p = some (.file mode content) := by
  unfold read find
  cases hloc : d.locate path with
  | error r => simp [bind, Except.bind]
  | ok p =>
    simp only [bind, Except.bind]
    cases hget : d.get? p with
    | none => simp [hget]
    | some e => cases e <;> simp [hget]

/-- What a path is read to depends on the place it leads to alone. -/
theorem read_of_get? {d d' : Disk} {path : Bytes} {p : Place} (h : d.locate path = .ok p)
    (h' : d'.locate path = .ok p) (hget : d'.get? p = d.get? p) : d'.read path = d.read path := by
  simp only [read, find, h, h', bind, Except.bind, hget]

theorem trimEnd_slash {path : Bytes} (h : path.getLast? ≠ some slash) : trimEnd slash path = path := by
  rcases List.eq_nil_or_concat path with rfl | ⟨x, b, rfl⟩
  · rfl
  · have hb : b ≠ slash := by
      rintro rfl
      exact h (by simp)
    rw [trimEnd, List.concat_eq_append, List.reverse_append, List.reverse_singleton, List.singleton_append,
      List.dropWhile_cons_of_neg (by simp [hb]), List.reverse_cons, List.reverse_reverse]

/-- A file can be written where its path leads, unless that is a folder. -/
theorem slot_eq_ok_iff {d : Disk} {path : Bytes} {p : Place} :
    d.slot path = .ok p ↔
      path.getLast? ≠ some slash ∧ d.locate path = .ok p ∧ d.isFolderAt p = false := by
  unfold slot isFolderAt
  by_cases hlast : path.getLast? = some slash
  · simp only [hlast, ne_eq, not_true_eq_false, false_and, iff_false]
    generalize d.locate _ = r
    cases r with
    | error r => simp [bind, Except.bind]
    | ok q =>
      simp only [bind, Except.bind]
      cases hget : d.get? q with
      | none => simp
      | some e => cases e <;> simp
  · rw [trimEnd_slash hlast]
    cases path with
    | nil => simp [locate, bind, Except.bind]
    | cons b path =>
      dsimp only
      cases hloc : d.locate (b :: path) with
      | error r => simp [bind, Except.bind]
      | ok q =>
        simp only [bind, Except.bind]
        by_cases hqp : q = p
        · subst hqp
          cases hget : d.get? q with
          | none => simp [hlast]
          | some e => cases e <;> simp [hlast]
        · cases hget : d.get? q with
          | none => simp [hlast, hqp]
          | some e => cases e <;> simp [hlast, hqp]

/-- Writing a file in place. -/
theorem overwrite_of_slot {d : Disk} {path : Bytes} {p : Place} (h : d.slot path = .ok p)
    (content : Bytes) : ∃ mode, d.overwrite path content = .ok (d.set p (.file mode content)) := by
  rw [overwrite, h]
  exact ⟨_, rfl⟩

theorem exists_of_overwrite {d d' : Disk} {path content : Bytes} (h : d.overwrite path content = .ok d') :
    ∃ p mode, d.slot path = .ok p ∧ d' = d.set p (.file mode content) := by
  unfold overwrite at h
  split at h
  · simp at h
  · rename_i p hp
    cases h
    exact ⟨p, _, hp, rfl⟩

/-- Writing a file by moving a new one to its path. -/
theorem exists_of_replace {d d' : Disk} {path content : Bytes} {mode : Nat}
    (h : d.replace path content mode = .ok d') :
    ∃ p, d.locate path = .ok p ∧ d.isFolderAt p = false ∧ d' = d.set p (.file mode content) := by
  unfold replace at h
  dsimp only at h
  split at h
  · simp at h
  · split at h
    · simp at h
    · rename_i p hp
      split at h
      · simp at h
      · rename_i hno
        cases h
        refine ⟨p, hp, ?_, rfl⟩
        unfold isFolderAt
        split
        · rename_i mode' hget
          exact absurd hget (hno mode')
        · rfl

/-- Removing what a path leads to. -/
theorem exists_of_remove {d d' : Disk} {path : Bytes} (h : d.remove path = .ok d') :
    ∃ p, d.locate path = .ok p ∧ d' = d.erase p := by
  unfold remove at h
  split at h
  · cases h
  · rename_i p hp
    split at h
    · cases h
    · cases h
      exact ⟨p, hp, rfl⟩
    · split at h
      · cases h
      · cases h
        exact ⟨p, hp, rfl⟩

/-! ### Disks that agree -/

/-- Do two disks hold the same? -/
structure Same (d d' : Disk) : Prop where
  here_eq : d'.here = d.here
  get?_eq : ∀ r, d'.get? r = d.get? r

/-- Do two disks hold the same, but perhaps at the place `q`, which is a folder on neither? -/
structure AgreeOff (q : Place) (d d' : Disk) : Prop where
  here_eq : d'.here = d.here
  get?_eq : ∀ r, r ≠ q → d'.get? r = d.get? r
  left : d.isFolderAt q = false
  right : d'.isFolderAt q = false

namespace AgreeOff

variable {q : Place} {d d' d'' : Disk}

theorem trans (h : AgreeOff q d d') (h' : AgreeOff q d' d'') : AgreeOff q d d'' :=
  ⟨h'.here_eq.trans h.here_eq, fun r hr => (h'.get?_eq r hr).trans (h.get?_eq r hr), h.left, h'.right⟩

/-- A file was written at the place. -/
theorem set (h : d.isFolderAt q = false) (mode : Nat) (content : Bytes) :
    AgreeOff q d (d.set q (.file mode content)) where
  here_eq := rfl
  get?_eq r hr := get?_set_of_ne d (ne_nil_of_isFolderAt h) _ hr
  left := h
  right := by rw [isFolderAt_set_file d h, h]

/-- Nothing was written. -/
theorem of_same (h : Same d d') (hq : d.isFolderAt q = false) : AgreeOff q d d' where
  here_eq := h.here_eq
  get?_eq r _ := h.get?_eq r
  left := hq
  right := by rw [isFolderAt_of_get? (h.get?_eq q), hq]

theorem isFolderAt_eq (h : AgreeOff q d d') (r : Place) : d'.isFolderAt r = d.isFolderAt r := by
  by_cases hr : r = q
  · rw [hr, h.left, h.right]
  · exact isFolderAt_of_get? (h.get?_eq r hr)

theorem locate_iff (h : AgreeOff q d d') {path : Bytes} {p : Place} :
    d'.locate path = .ok p ↔ d.locate path = .ok p := by
  constructor
  · exact locate_of_folders h.here_eq.symm fun r hr => by rw [← h.isFolderAt_eq, hr]
  · exact locate_of_folders h.here_eq fun r hr => by rw [h.isFolderAt_eq, hr]

theorem slot_iff (h : AgreeOff q d d') {path : Bytes} {p : Place} :
    d'.slot path = .ok p ↔ d.slot path = .ok p := by
  rw [slot_eq_ok_iff, slot_eq_ok_iff, h.locate_iff, h.isFolderAt_eq]

end AgreeOff

theorem AgreeOff.read_eq {q : Place} {d d' : Disk} (h : AgreeOff q d d') {path content : Bytes}
    (hpath : d.locate path ≠ .ok q) : d'.read path = .ok content ↔ d.read path = .ok content := by
  simp only [read_eq_ok_iff, h.locate_iff]
  constructor
  · rintro ⟨p, mode, hp, hget⟩
    have hne : p ≠ q := fun hpq => hpath (hpq ▸ hp)
    exact ⟨p, mode, hp, by rw [← hget, h.get?_eq p hne]⟩
  · rintro ⟨p, mode, hp, hget⟩
    have hne : p ≠ q := fun hpq => hpath (hpq ▸ hp)
    exact ⟨p, mode, hp, by rw [h.get?_eq p hne, hget]⟩

/-- A file that was written is read back. -/
theorem read_set {d : Disk} {path : Bytes} {q : Place} (h : d.slot path = .ok q) (mode : Nat)
    (content : Bytes) : (d.set q (.file mode content)).read path = .ok content := by
  obtain ⟨-, hlocate, hfolder⟩ := slot_eq_ok_iff.1 h
  exact read_eq_ok_iff.2 ⟨q, mode, (AgreeOff.set hfolder mode content).locate_iff.2 hlocate,
    get?_set_self d (ne_nil_of_isFolderAt hfolder) _⟩

/-! ### Disks that evolve -/

/-- Are all folders still there? -/
structure Evolves (d d' : Disk) : Prop where
  here_eq : d'.here = d.here
  isFolderAt : ∀ p, d.isFolderAt p = true → d'.isFolderAt p = true

namespace Evolves

variable {d d' d'' : Disk}

theorem refl (d : Disk) : Evolves d d := ⟨rfl, fun _ h => h⟩

theorem trans (h : Evolves d d') (h' : Evolves d' d'') : Evolves d d'' :=
  ⟨h'.here_eq.trans h.here_eq, fun p hp => h'.isFolderAt p (h.isFolderAt p hp)⟩

theorem of_agreeOff {q : Place} (h : AgreeOff q d d') : Evolves d d' :=
  ⟨h.here_eq, fun p hp => by rw [h.isFolderAt_eq, hp]⟩

theorem locate (h : Evolves d d') {path : Bytes} {p : Place} (hp : d.locate path = .ok p) :
    d'.locate path = .ok p :=
  locate_of_folders h.here_eq h.isFolderAt hp

end Evolves

/-- What the file at a place holds, if there is one. -/
def content? (d : Disk) (p : Place) : Option Bytes :=
  match d.get? p with
  | some (.file _ content) => some content
  | _ => none

theorem content?_eq_some_iff {d : Disk} {p : Place} {content : Bytes} :
    d.content? p = some content ↔ ∃ mode, d.get? p = some (.file mode content) := by
  unfold content?
  split
  · rename_i mode c hget
    simp [hget]
  · rename_i hno
    simp only [reduceCtorEq, false_iff, not_exists]
    exact fun mode => hno mode content

theorem content?_of_get? {d d' : Disk} {p : Place} (h : d'.get? p = d.get? p) :
    d'.content? p = d.content? p := by
  rw [content?, content?, h]

theorem isFolderAt_of_content? {d : Disk} {p : Place} {content : Bytes} (h : d.content? p = some content) :
    d.isFolderAt p = false := by
  obtain ⟨mode, hget⟩ := content?_eq_some_iff.1 h
  exact isFolderAt_of_file hget

theorem get?_ne_none_of_content? {d : Disk} {p : Place} {content : Bytes} (h : d.content? p = some content) :
    d.get? p ≠ none := by
  obtain ⟨mode, hget⟩ := content?_eq_some_iff.1 h
  simp [hget]

theorem read_eq_ok_iff_content? {d : Disk} {path content : Bytes} :
    d.read path = .ok content ↔ ∃ p, d.locate path = .ok p ∧ d.content? p = some content := by
  simp only [read_eq_ok_iff, content?_eq_some_iff]
  constructor
  · rintro ⟨p, mode, hp, hget⟩
    exact ⟨p, hp, mode, hget⟩
  · rintro ⟨p, hp, mode, hget⟩
    exact ⟨p, mode, hp, hget⟩

theorem read_iff_content? {d : Disk} {path content : Bytes} {p : Place} (hp : d.locate path = .ok p) :
    d.read path = .ok content ↔ d.content? p = some content := by
  rw [read_eq_ok_iff_content?]
  constructor
  · rintro ⟨q, hq, hcontent⟩
    obtain rfl := Except.ok.inj (hp.symm.trans hq)
    exact hcontent
  · exact fun hcontent => ⟨p, hp, hcontent⟩

/-- What files hold after one was written. -/
theorem content?_set (d : Disk) {p : Place} (hp : d.isFolderAt p = false) (mode : Nat) (content : Bytes)
    (q : Place) :
    (d.set p (.file mode content)).content? q = if q = p then some content else d.content? q := by
  rw [content?, get?_set d (ne_nil_of_isFolderAt hp)]
  by_cases hq : q = p
  · rw [if_pos hq, if_pos hq]
  · rw [if_neg hq, if_neg hq, content?]

theorem AgreeOff.erase {d : Disk} {p : Place} (hp : d.isFolderAt p = false) : AgreeOff p d (d.erase p) where
  here_eq := rfl
  get?_eq r hr := by rw [get?_erase d (ne_nil_of_isFolderAt hp), if_neg hr]
  left := hp
  right := by rw [Disk.isFolderAt, get?_erase d (ne_nil_of_isFolderAt hp), if_pos rfl]

theorem AgreeOff.content?_eq {q : Place} {d d' : Disk} (h : AgreeOff q d d') {r : Place} (hr : r ≠ q) :
    d'.content? r = d.content? r :=
  content?_of_get? (h.get?_eq r hr)

/-! ### Writing in one step -/

/-- Can the file at a place be written in one step, by a path that leads there? The new file needs room beside
it. -/
structure Replaceable (d : Disk) (path : Bytes) (p : Place) : Prop where
  locate_eq : d.locate path = .ok p
  isFolderAt_eq : d.isFolderAt p = false
  staged : ∃ q, d.locate (stagePath path) = .ok q

theorem Replaceable.replace_eq {d : Disk} {path : Bytes} {p : Place} (h : d.Replaceable path p)
    (content : Bytes) (mode : Nat) : d.replace path content mode = .ok (d.set p (.file mode content)) := by
  obtain ⟨q, hq⟩ := h.staged
  have hfile := h.isFolderAt_eq
  unfold isFolderAt at hfile
  unfold replace
  simp only [hq, h.locate_eq]
  cases hget : d.get? p with
  | none => rfl
  | some e => cases e with
    | file mode' content' => rfl
    | folder mode' =>
      rw [hget] at hfile
      cases hfile

theorem AgreeOff.replaceable {q p : Place} {d d' : Disk} {path : Bytes} (h : AgreeOff q d d')
    (hpath : d.Replaceable path p) : d'.Replaceable path p where
  locate_eq := h.locate_iff.2 hpath.locate_eq
  isFolderAt_eq := (h.isFolderAt_eq p).trans hpath.isFolderAt_eq
  staged := by
    obtain ⟨r, hr⟩ := hpath.staged
    exact ⟨r, h.locate_iff.2 hr⟩

theorem AgreeOff.refl {q : Place} {d : Disk} (hq : d.isFolderAt q = false) : AgreeOff q d d :=
  .of_same ⟨rfl, fun _ => rfl⟩ hq

/-- A file that can be read is there to be looked at. -/
theorem look_of_read {d : Disk} {path content : Bytes} (h : d.read path = .ok content) :
    ∃ status, d.look path = .ok status := by
  obtain ⟨p, mode, hp, hget⟩ := read_eq_ok_iff.1 h
  refine ⟨(Entry.file mode content).status, ?_⟩
  simp only [look, find, hp, bind, Except.bind, hget]

/-! ### Making folders -/

/-- Where there are folders already, none are made. -/
theorem makeOnWay_of_isFolderAt {d : Disk} {cs : List Bytes} {p : Place}
    (h : ∀ n ≤ cs.length, d.isFolderAt (p ++ cs.take n) = true) : d.makeOnWay cs p = .ok d := by
  induction cs generalizing p with
  | nil => rfl
  | cons c cs ih =>
    have hfirst := h 1 (by simp)
    rw [List.take_succ_cons, List.take_zero] at hfirst
    unfold isFolderAt at hfirst
    split at hfirst
    · rename_i mode hget
      rw [makeOnWay, hget]
      refine ih fun n hn => ?_
      have hnext := h (n + 1) (by simpa using hn)
      rwa [List.take_succ_cons, List.append_cons] at hnext
    · simp at hfirst

/-- What making the folders on a way comes to: no file has changed, and nothing has changed off the way. -/
structure Paved (way : Place) (d d' : Disk) : Prop where
  evolves : Evolves d d'
  content?_eq : ∀ r, d'.content? r = d.content? r
  get?_eq : ∀ r, ¬ r <+: way → d'.get? r = d.get? r

namespace Paved

theorem refl (way : Place) (d : Disk) : Paved way d d := ⟨.refl d, fun _ => rfl, fun _ _ => rfl⟩

theorem trans {way : Place} {d d' d'' : Disk} (h : Paved way d d') (h' : Paved way d' d'') :
    Paved way d d'' where
  evolves := h.evolves.trans h'.evolves
  content?_eq r := (h'.content?_eq r).trans (h.content?_eq r)
  get?_eq r hr := (h'.get?_eq r hr).trans (h.get?_eq r hr)

/-- A folder was made where nothing was. -/
theorem set {way p : Place} {d : Disk} (hp : d.get? p = none) (hway : p <+: way) (mode : Nat) :
    Paved way d (d.set p (.folder mode)) := by
  have hne : p ≠ [] := by
    rintro rfl
    simp at hp
  refine ⟨⟨rfl, fun r hr => ?_⟩, fun r => ?_, fun r hr => ?_⟩
  · rw [isFolderAt, get?_set d hne]
    by_cases hrp : r = p
    · rw [if_pos hrp]
    · rw [if_neg hrp]
      exact hr
  · rw [content?, get?_set d hne]
    by_cases hrp : r = p
    · rw [if_pos hrp, hrp, content?, hp]
    · rw [if_neg hrp, content?]
  · exact get?_set_of_ne d hne _ (fun hrp => hr (hrp ▸ hway))

end Paved

theorem paved_of_makeOnWay {d d' : Disk} {cs : List Bytes} {p : Place} (h : d.makeOnWay cs p = .ok d') :
    Paved (p ++ cs) d d' ∧ ∀ n < cs.length, d'.isFolderAt (p ++ cs.take (n + 1)) = true := by
  induction cs generalizing d p with
  | nil =>
    cases h
    exact ⟨.refl _ _, by simp⟩
  | cons c cs ih =>
    have hsplit : p ++ c :: cs = p ++ [c] ++ cs := List.append_cons p c cs
    -- The rest of the way is made on a disk where its first folder is there.
    have hrest : ∀ d₁ : Disk, Paved (p ++ c :: cs) d d₁ → d₁.isFolderAt (p ++ [c]) = true →
        d₁.makeOnWay cs (p ++ [c]) = .ok d' → Paved (p ++ c :: cs) d d' ∧
          ∀ n < (c :: cs).length, d'.isFolderAt (p ++ (c :: cs).take (n + 1)) = true := by
      intro d₁ hfirst hfolder hmake
      obtain ⟨hpaved, hfolders⟩ := ih hmake
      rw [← hsplit] at hpaved
      refine ⟨hfirst.trans hpaved, fun n hn => ?_⟩
      cases n with
      | zero => exact hpaved.evolves.isFolderAt _ hfolder
      | succ n =>
        have hnext := hfolders n (by simpa using hn)
        rwa [List.append_assoc, List.singleton_append, ← List.take_succ_cons] at hnext
    rw [makeOnWay] at h
    split at h
    · cases h
    · rename_i mode hget
      exact hrest d (.refl _ d) (by rw [isFolderAt, hget]) h
    · rename_i hget
      split at h
      · cases h
      · have hne : p ++ [c] ≠ [] := by simp
        refine hrest _ (.set hget ?_ folderMode) ?_ h
        · exact ⟨cs, hsplit.symm⟩
        · rw [isFolderAt, get?_set_self d hne]

/-- Making the folder of an absolute path that is given by names. -/
theorem paved_of_makeFolders {d d' : Disk} {cs : List Bytes} (hcs : ∀ c ∈ cs, Path.IsName c)
    (h : d.makeFolders (Path.ofComponents true cs) = .ok d') :
    Paved cs d d' ∧ ∀ n ≤ cs.length, d'.isFolderAt (cs.take n) = true := by
  rw [makeFolders, Path.absolute, Path.isAbsolute_ofComponents, if_pos rfl, Path.clean,
    Path.isAbsolute_ofComponents, Path.components_ofComponents hcs, Path.components_ofComponents hcs] at h
  obtain ⟨hpaved, hfolders⟩ := paved_of_makeOnWay h
  refine ⟨hpaved, fun n hn => ?_⟩
  cases n with
  | zero => exact d'.isFolderAt_nil
  | succ n => exact hfolders n hn

theorem makeFolders_of_isFolderAt {d : Disk} {cs : List Bytes} (hcs : ∀ c ∈ cs, Path.IsName c)
    (h : ∀ n ≤ cs.length, d.isFolderAt (cs.take n) = true) :
    d.makeFolders (Path.ofComponents true cs) = .ok d := by
  rw [makeFolders, Path.absolute, Path.isAbsolute_ofComponents, if_pos rfl, Path.clean,
    Path.isAbsolute_ofComponents, Path.components_ofComponents hcs, Path.components_ofComponents hcs]
  exact makeOnWay_of_isFolderAt h

end Spotlight.Files.Disk
