import Spotlight.Patch.Script

/-!
# Unified diffs

A script is shown as hunks: the changed lines with three unchanged lines around them. Changes whose
surroundings touch share a hunk.

* `Patch.Hunk` — a stretch of a script, with its place in both texts;
* `Patch.hunks` — the hunks of a script;
* `Patch.unified` — the diff between two texts, empty when they are the same.
-/

namespace Spotlight.Patch

open Bytes

/-- A stretch of a script that holds changes. -/
structure Hunk where
  /-- The number of old lines in front of it. -/
  oldStart : Nat
  /-- The number of new lines in front of it. -/
  newStart : Nat
  /-- Its edits. -/
  edits : List Edit
deriving DecidableEq, Repr

/-- The number of unchanged lines shown around a change. -/
def context : Nat := 3

/-- For every edit, is it a change or one of the `left` or `context` edits after one? -/
def afterChange : (left : Nat) → List Edit → List Bool
  | _, [] => []
  | left, e :: es =>
    if e.isChange then true :: afterChange context es
    else (left != 0) :: afterChange (left - 1) es

/-- For every edit, is it a change or near one? -/
def nearChange (es : List Edit) : List Bool :=
  List.zipWith (· || ·) (afterChange 0 es) (afterChange 0 es.reverse).reverse

/-- The hunk of the edits collected so far, the last one first, if there are any. -/
def Hunk.close (i j : Nat) : List Edit → List Hunk
  | [] => []
  | pending => [⟨i, j, pending.reverse⟩]

/-- The hunks among edits that are marked when they are shown. The marked edits collected so far
start after `i` old and `j` new lines. -/
def hunksFrom (i j : Nat) (pending : List Edit) : List (Edit × Bool) → List Hunk
  | [] => Hunk.close i j pending
  | (e, true) :: es => hunksFrom i j (e :: pending) es
  | (e, false) :: es =>
    Hunk.close i j pending ++
      hunksFrom (i + (oldLines (e :: pending)).length) (j + (newLines (e :: pending)).length) [] es

/-- The hunks of a script. -/
def hunks (es : List Edit) : List Hunk := hunksFrom 0 0 [] (es.zip (nearChange es))

/-- The lines of a text. A line end at the end of the text has an empty line behind it. -/
def lines (s : Bytes) : List Bytes := splitOn lf s

/-- A stretch of `size` lines after `start` others: the number of its first line, and its size
unless that is one. An empty stretch is named after the line in front of it. -/
def range (start size : Nat) : Bytes :=
  if size = 1 then ofNat (start + 1)
  else ofNat (if size = 0 then start else start + 1) ++ "," ++ ofNat size

/-- One line of a diff. -/
def Edit.render : Edit → Bytes
  | .keep line => " " ++ line ++ "\n"
  | .drop line => "-" ++ line ++ "\n"
  | .add line => "+" ++ line ++ "\n"

/-- A hunk with its head line. -/
def Hunk.render (h : Hunk) : Bytes :=
  "@@ -" ++ range h.oldStart (oldLines h.edits).length ++ " +" ++
    range h.newStart (newLines h.edits).length ++ " @@\n" ++ h.edits.flatMap Edit.render

/-- The diff from `old` to `new` for the file at `path`, empty when they are the same. -/
def unified (path old new : Bytes) : Bytes :=
  if old = new then []
  else "--- a/" ++ path ++ "\n+++ b/" ++ path ++ "\n" ++
    (hunks (script (lines old) (lines new))).flatMap Hunk.render

end Spotlight.Patch
