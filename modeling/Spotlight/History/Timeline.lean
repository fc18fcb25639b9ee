import Spotlight.History.Entry

/-!
# The timeline of activations

A timeline is the list of recorded activations and a position in it: the activations in front of the
position are in force, those behind it were undone and can be repeated.

* `Timeline`, `Timeline.index` — the list, and the index of the last activation in force;
* `Timeline.undo?`, `Timeline.redo?` — one step back or forth;
* `Timeline.record` — a new activation takes the place of the undone ones;
* `Timeline.text`, `Timeline.parse` — its form as a file.
-/

namespace Spotlight.History

open Json

/-- The recorded activations, oldest first, and how many of them are in force. -/
structure Timeline where
  /-- The activations, oldest first. -/
  entries : List Entry := []
  /-- The number of activations in force. -/
  done : Nat := 0
  /-- No more are in force than there are. -/
  done_le : done ≤ entries.length := by exact Nat.zero_le _
deriving DecidableEq, Repr

namespace Timeline

/-- The timeline of a project in which nothing was activated. -/
def empty : Timeline := {}

instance : Inhabited Timeline := ⟨empty⟩

/-- The index of the last activation in force, -1 if there is none. -/
def index (t : Timeline) : Int := (t.done : Int) - 1

/-- The activations that were undone, the next one to repeat first. -/
def undone (t : Timeline) : List Entry := t.entries.drop t.done

/-- The last activation in force, and the timeline without it being in force. -/
def undo? (t : Timeline) : Option (Entry × Timeline) :=
  if h : 0 < t.done then
    have := t.done_le
    some (t.entries[t.done - 1], ⟨t.entries, t.done - 1, by omega⟩)
  else none

/-- The first undone activation, and the timeline with it being in force again. -/
def redo? (t : Timeline) : Option (Entry × Timeline) :=
  if h : t.done < t.entries.length then
    some (t.entries[t.done], ⟨t.entries, t.done + 1, h⟩)
  else none

/-- The timeline without the undone activations. -/
def dropUndone (t : Timeline) : Timeline :=
  ⟨t.entries.take t.done, t.done, by rw [List.length_take]; exact Nat.le_min.2 ⟨Nat.le_refl _, t.done_le⟩⟩

/-- The timeline with one more activation in force, behind the last one; undone ones are dropped. -/
def record (t : Timeline) (e : Entry) : Timeline :=
  ⟨t.entries.take t.done ++ [e], t.done + 1, by
    rw [List.length_append, List.length_take, Nat.min_eq_left t.done_le]
    exact Nat.le_refl _⟩

/-! ### As a file -/

/-- The timeline as JSON. -/
def toJson (t : Timeline) : Value := .object
  [("history", .array (t.entries.map Entry.toJson)),
   ("current_index", .number (Bytes.ofInt t.index))]

/-- The timeline as the text of a file. -/
def text (t : Timeline) : Bytes := t.toJson.print

/-- The entries and the index in a history file, in range or not. -/
abbrev Stored := List Entry × Int

/-- Reads the entries and the index. -/
def read : Reader Stored := Reader.record
  [⟨"history", fun s v => (Reader.list Entry.read {} s.1 v).map fun es => (es, s.2)⟩,
   ⟨"current_index", fun s v => (Reader.int s.2 v).map fun n => (s.1, n)⟩]

/-- The entries and the index a text stands for. A missing index is zero. -/
def parse (s : Bytes) : Option Stored := (Json.parse s).bind (read ([], 0))

/-- The timeline with these entries and this index, if it is in range. -/
def ofStored? (s : Stored) : Option Timeline :=
  if h : -1 ≤ s.2 ∧ s.2 < s.1.length then some ⟨s.1, (s.2 + 1).toNat, by omega⟩ else none

end Timeline

end Spotlight.History
