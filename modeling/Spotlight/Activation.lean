import Spotlight.Group.Extract
import Spotlight.Region
import Spotlight.Text.Blank

/-!
# Activating a group

One group of the disabled region moves in front of a fresh comment that holds the others; the marker
turns into a line comment.

* `Activation.rewrite` — the new text of the region;
* `Activation.run` — the new text of the file;
* `Activation.list` — the groups in the disabled region of a file.
-/

namespace Spotlight

open Bytes

/-- A successful activation. -/
structure Activation where
  /-- The new text of the file. -/
  text : Bytes
  /-- The disabled region of the old text. -/
  region : Region
  /-- The group that was activated. -/
  group : Group
  /-- The groups that are still disabled. -/
  disabled : List Bytes
deriving DecidableEq, Repr

namespace Activation

/-- The marker as a line comment: its text stays as a note, but it opens no comment any more. -/
def enableMarker (marker : Bytes) : Bytes :=
  "//" ++ (Bytes.strip? "/*" marker).getD marker

/-- The line end used after the marker, or in the body when the first group shares the marker's
line. -/
def lineEnd (r : Region) : Bytes :=
  if r.opening.contains "\r\n" then "\r\n"
  else if !r.opening.contains "\n" && r.body.contains "\r\n" then "\r\n"
  else "\n"

/-- The region with the group active and everything else inside a fresh comment, which ends where
the old one did. -/
def rewrite (r : Region) (g : Group) : Bytes :=
  Blank.trimEnd (enableMarker r.opening) ++ lineEnd r ++ Blank.trimStart g.raw ++ lineEnd r ++
    "/*" ++ Group.remainder r.body g ++ r.closing

/-- Activates one group of a file. -/
def run (src : Bytes) (o : Options) : Except Fault Activation := do
  o.check
  let r ← Region.locate src o
  let g ← Group.extract r.body o
  let disabled ← Group.list (Group.remainder r.body g) o.keyword
  return ⟨(Document.split src r).join (rewrite r g), r, g, disabled⟩

/-- The groups in the disabled region of a file. -/
def list (src : Bytes) (o : Options) : Except Fault (List Bytes) := do
  o.check
  let r ← Region.locate src o
  Group.list r.body o.keyword

end Activation

end Spotlight
