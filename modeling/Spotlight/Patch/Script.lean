import Spotlight.Text.Bytes

/-!
# Edit scripts

The change from one list of lines to another, found by taking the longest run of equal lines and
going on with what stands before and behind it.

* `Patch.Edit` — a line that stays, goes or comes;
* `Patch.script` — the edits from the old lines to the new ones;
* `Patch.oldLines_script`, `Patch.newLines_script` — the script starts at the old lines and ends at
  the new ones.

Lines that are frequent in a long text never start a run; they only make it longer.
-/

namespace Spotlight.Patch

/-- What happens to one line. -/
inductive Edit
  /-- The line stays. -/
  | keep (line : Bytes)
  /-- The line goes. -/
  | drop (line : Bytes)
  /-- The line comes. -/
  | add (line : Bytes)
deriving DecidableEq, Repr

namespace Edit

/-- The line in the old text. -/
def old? : Edit → Option Bytes
  | keep line | drop line => some line
  | add _ => none

/-- The line in the new text. -/
def new? : Edit → Option Bytes
  | keep line | add line => some line
  | drop _ => none

/-- Does the edit change the text? -/
def isChange : Edit → Bool
  | keep _ => false
  | _ => true

end Edit

/-- The lines a script starts from. -/
def oldLines (es : List Edit) : List Bytes := es.filterMap Edit.old?

/-- The lines a script ends with. -/
def newLines (es : List Edit) : List Bytes := es.filterMap Edit.new?

@[simp] theorem oldLines_append (es fs : List Edit) :
    oldLines (es ++ fs) = oldLines es ++ oldLines fs := by
  simp [oldLines]

@[simp] theorem newLines_append (es fs : List Edit) :
    newLines (es ++ fs) = newLines es ++ newLines fs := by
  simp [newLines]

@[simp] theorem oldLines_keep (ls : List Bytes) : oldLines (ls.map Edit.keep) = ls := by
  induction ls with
  | nil => rfl
  | cons l ls ih => simp_all [oldLines, Edit.old?]

@[simp] theorem newLines_keep (ls : List Bytes) : newLines (ls.map Edit.keep) = ls := by
  induction ls with
  | nil => rfl
  | cons l ls ih => simp_all [newLines, Edit.new?]

@[simp] theorem oldLines_drop (ls : List Bytes) : oldLines (ls.map Edit.drop) = ls := by
  induction ls with
  | nil => rfl
  | cons l ls ih => simp_all [oldLines, Edit.old?]

@[simp] theorem newLines_drop (ls : List Bytes) : newLines (ls.map Edit.drop) = [] := by
  induction ls with
  | nil => rfl
  | cons l ls ih => simp_all [newLines, Edit.new?]

@[simp] theorem oldLines_add (ls : List Bytes) : oldLines (ls.map Edit.add) = [] := by
  induction ls with
  | nil => rfl
  | cons l ls ih => simp_all [oldLines, Edit.old?]

@[simp] theorem newLines_add (ls : List Bytes) : newLines (ls.map Edit.add) = ls := by
  induction ls with
  | nil => rfl
  | cons l ls ih => simp_all [newLines, Edit.new?]

/-! ### The longest run -/

/-- The number of lines two texts have in common at their head. -/
def commonRun : List Bytes → List Bytes → Nat
  | x :: xs, y :: ys => if x = y then commonRun xs ys + 1 else 0
  | _, _ => 0

theorem commonRun_le_left : ∀ xs ys : List Bytes, commonRun xs ys ≤ xs.length
  | [], _ => by simp [commonRun]
  | _ :: _, [] => by simp [commonRun]
  | x :: xs, y :: ys => by
      have ih := commonRun_le_left xs ys
      simp only [commonRun, List.length_cons]
      split <;> omega

theorem take_commonRun : ∀ xs ys : List Bytes,
    xs.take (commonRun xs ys) = ys.take (commonRun xs ys)
  | [], _ => by simp [commonRun]
  | _ :: _, [] => by simp [commonRun]
  | x :: xs, y :: ys => by
      by_cases h : x = y
      · simp [commonRun, h, take_commonRun xs ys]
      · simp [commonRun, h]

/-- Where the longest run starts in both texts, as far as it is known, and how long it is. -/
structure Run where
  /-- The first line in the old text. -/
  old : Nat := 0
  /-- The first line in the new text. -/
  new : Nat := 0
  /-- The number of lines. -/
  size : Nat := 0

/-- For every line of the new text, the length of the run that ends there with the line `x` of the
old text. `corner` and `above` hold those lengths for the line before `x`, moved by one; what is
missing counts as zero. -/
def runRow (x : Bytes) : (corner : Nat) → (above : List Nat) → List Bytes → List Nat
  | _, _, [] => []
  | corner, above, y :: new =>
    (if x = y then corner + 1 else 0) :: runRow x (above.headD 0) above.tail new

/-- The best run after seeing those that end with line `i` of the old text and line `j` and the
following ones of the new text. A later run only wins when it is longer. -/
def Run.better (i : Nat) : (j : Nat) → List Nat → Run → Run
  | _, [], best => best
  | j, k :: row, best =>
    Run.better i (j + 1) row (if best.size < k then ⟨i + 1 - k, j + 1 - k, k⟩ else best)

/-- The longest run of equal lines that are not frequent, over the lines `i` and following of the
old text. -/
def longestRun (frequent : List Bytes) (new : List Bytes) :
    (i : Nat) → (above : List Nat) → List Bytes → Run → Run
  | _, _, [], best => best
  | i, above, x :: old, best =>
    let row := if frequent.contains x then [] else runRow x 0 above new
    longestRun frequent new (i + 1) row old (Run.better i 0 row best)

/-- Where the longest run starts once it is extended backwards over equal lines. -/
def anchor (frequent old new : List Bytes) : Nat × Nat :=
  let best := longestRun frequent new 0 [] old {}
  let back := commonRun (old.take best.old).reverse (new.take best.new).reverse
  (best.old - back, best.new - back)

/-! ### The script -/

/-- The edits from the old lines to the new ones. What lies between two runs goes first and comes
afterwards. -/
def scriptWith (frequent old new : List Bytes) : List Edit :=
  let i := (anchor frequent old new).1
  let j := (anchor frequent old new).2
  let k := commonRun (old.drop i) (new.drop j)
  if h : k = 0 then old.map .drop ++ new.map .add
  else
    have hi : i < old.length := by
      have hk : k ≤ old.length - i := by
        simpa using commonRun_le_left (old.drop i) (new.drop j)
      omega
    have hpos : 0 < k := Nat.pos_of_ne_zero h
    scriptWith frequent (old.take i) (new.take j) ++ ((old.drop i).take k).map .keep ++
      scriptWith frequent (old.drop (i + k)) (new.drop (j + k))
termination_by old.length
decreasing_by
  · simp only [List.length_take]; omega
  · rw [List.length_drop]
    change old.length - (i + k) < old.length
    omega

/-- The lines of a text of two hundred or more lines that make up more than one in a hundred. -/
def frequentLines (ls : List Bytes) : List Bytes :=
  if ls.length < 200 then [] else ls.filter fun l => ls.length / 100 + 1 < ls.count l

/-- The edits from the old lines to the new ones. -/
def script (old new : List Bytes) : List Edit := scriptWith (frequentLines new) old new

theorem oldLines_scriptWith (frequent old new : List Bytes) :
    oldLines (scriptWith frequent old new) = old := by
  fun_induction scriptWith frequent old new with
  | case1 old new i j k h => simp
  | case2 old new i j k h hi hpos ih₁ ih₂ =>
      rw [oldLines_append, oldLines_append, ih₁, ih₂, oldLines_keep, ← List.drop_drop,
        List.append_assoc, List.take_append_drop, List.take_append_drop]

theorem newLines_scriptWith (frequent old new : List Bytes) :
    newLines (scriptWith frequent old new) = new := by
  fun_induction scriptWith frequent old new with
  | case1 old new i j k h => simp
  | case2 old new i j k h hi hpos ih₁ ih₂ =>
      have hrun : (old.drop i).take k = (new.drop j).take k := take_commonRun _ _
      rw [newLines_append, newLines_append, ih₁, ih₂, newLines_keep, hrun, ← List.drop_drop,
        List.append_assoc, List.take_append_drop, List.take_append_drop]

/-- A script starts at the old lines. -/
theorem oldLines_script (old new : List Bytes) : oldLines (script old new) = old :=
  oldLines_scriptWith _ old new

/-- A script ends with the new lines. -/
theorem newLines_script (old new : List Bytes) : newLines (script old new) = new :=
  newLines_scriptWith _ old new

end Spotlight.Patch
