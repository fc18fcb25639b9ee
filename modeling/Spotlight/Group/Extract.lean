import Spotlight.Group.Header
import Spotlight.Options
import Spotlight.Scan.Call

/-!
# Taking one group out of a body

* `Group` — a named group with its text and place in the body;
* `Group.extractBalanced` — the group whose end is found by counting braces;
* `Group.extractHeuristic` — the group that ends at the nearest closing triple;
* `Group.remainder` — the body without the group.
-/

namespace Spotlight

open Bytes

/-- A named group in the body of a disabled region. -/
structure Group where
  /-- The name of the group. -/
  name : Bytes
  /-- The text of the group with the white space in front of it. -/
  raw : Bytes
  /-- The offset of that text in the body. -/
  start : Nat
deriving DecidableEq, Repr

namespace Group

/-- The offset just past the group. -/
def stop (g : Group) : Nat := g.start + g.raw.length

/-- The group of that name between two offsets of a body. -/
def slice (name body : Bytes) (start stop : Nat) : Group :=
  ⟨name, (body.drop start).take (stop - start), start⟩

/-- The body without the group. -/
def remainder (body : Bytes) (g : Group) : Bytes := body.take g.start ++ body.drop g.stop

/-- The body without the group; nothing when the group does not lie in the body. -/
def remainder? (body : Bytes) (g : Group) : Option Bytes :=
  if g.stop ≤ body.length then some (remainder body g) else none

/-- The only one of the candidates. -/
def only (o : Options) {α : Type} : List α → Except Fault α
  | [] => .error (.groupNotFound o.keyword o.name)
  | [a] => .ok a
  | _ => .error (.ambiguousGroup o.keyword o.name)

/-- Takes the group whose body ends at the brace that balances the one of its header. Only headers
at the top level of the body count. -/
def extractBalanced (body : Bytes) (o : Options) : Except Fault Group := do
  let h ← only o (topLevel o.keyword (.exactly o.name) body)
  match Scan.matchBrace? body (h.stop - 1) with
  | none => .error (.unbalancedGroup o.keyword o.name)
  | some brace =>
    match Scan.closeCall? body brace with
    | none => .error (.unclosedCall o.keyword o.name)
    | some stop => .ok (slice o.name body (Scan.leadingSpace body h.start) stop)

/-- The three bytes that end the call of a group. -/
def closer : Bytes := [rbrace, rparen, semicolon]

/-- The first offset at or after `start` just past a closing triple. -/
def closerEnd? (body : Bytes) (start : Nat) : Option Nat :=
  (Bytes.find? closer (body.drop start)).map fun i => start + i + closer.length

/-- The spans from the white space in front of a header to the nearest closing triple after it,
from left to right without overlap. The headers are those of the body at or after `start`. -/
def heuristicSpans (body : Bytes) : (start : Nat) → List Header → List (Nat × Nat)
  | _, [] => []
  | start, h :: hs =>
    if h.start < start then heuristicSpans body start hs
    else match closerEnd? body h.stop with
      | none => []
      | some stop =>
        let gap := (((body.take h.start).drop start).reverse.takeWhile isBlank).length
        (h.start - gap, stop) :: heuristicSpans body stop hs

/-- Every header of a text, also those that start inside another one. -/
def allHeadersFrom (keyword : Bytes) (names : NamePattern) :
    (i : Nat) → (before : Option UInt8) → Bytes → List Header
  | _, _, [] => []
  | i, before, b :: s =>
    match readHeader? keyword names before (b :: s) with
    | some (name, rest) =>
      ⟨i, i + 1 + (s.length - rest.length), name⟩ ::
        allHeadersFrom keyword names (i + 1) (some b) s
    | none => allHeadersFrom keyword names (i + 1) (some b) s

/-- Takes the group that ends at the nearest closing triple after its header. This is right only
when no such triple stands inside the group. -/
def extractHeuristic (body : Bytes) (o : Options) : Except Fault Group := do
  let hs := allHeadersFrom o.keyword (.exactly o.name) 0 none body
  let (start, stop) ← only o (heuristicSpans body 0 hs)
  return slice o.name body start stop

/-- Takes the group called for out of the body of a disabled region. -/
def extract (body : Bytes) (o : Options) : Except Fault Group :=
  if !(o.keyword.isUtf8 && o.name.isUtf8) then .error .malformedName
  else if o.isHeuristic then extractHeuristic body o
  else extractBalanced body o

/-- The names of the groups at the top level of a body, in order. -/
def list (body keyword : Bytes) : Except Fault (List Bytes) :=
  if keyword.isUtf8 then .ok (names keyword body) else .error .malformedName

end Group

end Spotlight
