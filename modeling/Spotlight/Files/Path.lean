import Spotlight.Text.Bytes

/-!
# Paths

Paths are texts with slashes between their components.

* `Path.clean` — the shortest form of a path;
* `Path.join` — a path below another;
* `Path.parent`, `Path.base` — a path cut in front of its last component;
* `Path.relative?` — a path as seen from a directory.
-/

namespace Spotlight.Path

open Bytes

/-- The component that stands for the directory itself. -/
def dot : Bytes := [0x2e]

/-- The component that stands for the directory above. -/
def dotdot : Bytes := [0x2e, 0x2e]

/-- Does the path start at the root? -/
def isAbsolute (p : Bytes) : Bool := p.head? == some slash

/-- Adds a component behind others, the last one first. The directory itself changes nothing, and
the directory above takes one away; at the root there is none above. -/
def step (rooted : Bool) (done : List Bytes) (c : Bytes) : List Bytes :=
  if c.isEmpty || c = dot then done
  else if c = dotdot then
    match done with
    | [] => if rooted then [] else [dotdot]
    | d :: ds => if d = dotdot then dotdot :: d :: ds else ds
  else c :: done

/-- The components of the shortest form of a path. -/
def components (p : Bytes) : List Bytes :=
  ((splitOn slash p).foldl (step (isAbsolute p)) []).reverse

/-- The path with these components. -/
def ofComponents (rooted : Bool) (cs : List Bytes) : Bytes :=
  if rooted then slash :: joinWith [slash] cs
  else if cs.isEmpty then dot else joinWith [slash] cs

/-- The shortest form of a path. -/
def clean (p : Bytes) : Bytes := ofComponents (isAbsolute p) (components p)

/-- The path `p` below the directory `dir`. -/
def join (dir p : Bytes) : Bytes :=
  if dir.isEmpty then (if p.isEmpty then [] else clean p) else clean (dir ++ slash :: p)

/-- The path, taken to start in the directory `dir` unless it is absolute. -/
def absolute (dir p : Bytes) : Bytes := if isAbsolute p then clean p else join dir p

/-- The part of a path behind its last slash, and the part in front of it, slash included. -/
def splitLast (p : Bytes) : Bytes × Bytes :=
  let name := (p.reverse.takeWhile (· != slash)).reverse
  (name, p.take (p.length - name.length))

/-- The directory a path lies in. -/
def parent (p : Bytes) : Bytes := clean (splitLast p).2

/-- The last component of a path. -/
def base (p : Bytes) : Bytes :=
  if p.isEmpty then dot
  else match trimEnd slash p with
    | [] => [slash]
    | p => (splitLast p).1

/-- What is left of two lists of components behind the common ones. -/
def dropCommon : List Bytes → List Bytes → List Bytes × List Bytes
  | a :: as, b :: bs => if a = b then dropCommon as bs else (a :: as, b :: bs)
  | as, bs => (as, bs)

/-- The path as seen from the directory `dir`. There is no answer when only one of the two starts at
the root, or when the way leads through a directory that is not known. -/
def relative? (dir p : Bytes) : Option Bytes :=
  if isAbsolute dir != isAbsolute p then none
  else
    let (up, down) := dropCommon (components dir) (components p)
    if up.head? == some dotdot then none
    else some (ofComponents false (up.map (fun _ => dotdot) ++ down))

end Spotlight.Path
