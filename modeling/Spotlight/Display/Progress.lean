import Spotlight.Display.Styled

/-!
# The view of a running operation

While an operation runs, a wheel turns on the terminal. The view is empty once it is done: the outcome
is printed when the view is gone.

* `Progress` — the state of the view;
* `Progress.Event`, `Progress.step` — what happens to it;
* `Progress.view` — what it shows.
-/

namespace Spotlight

open Bytes

/-- The state of the view. -/
structure Progress where
  /-- Which picture of the wheel is shown. -/
  frame : Nat := 0
  /-- The outcome, with the error if there is one, once the operation is done. -/
  outcome : Option (Summary × Option Bytes) := none
deriving Repr

namespace Progress

/-- What happens to the view. -/
inductive Event
  /-- The operation is done. -/
  | done (summary : Summary) (error : Option Bytes)
  /-- It is time to turn the wheel. -/
  | tick
  /-- The terminal has another size. -/
  | resize
  /-- A key was pressed. -/
  | key (name : Bytes)

/-- The pictures of the wheel. -/
def wheel : List Bytes := ["⣾ ", "⣽ ", "⣻ ", "⢿ ", "⡿ ", "⣟ ", "⣯ ", "⣷ "]

/-- The state after an event, and whether the view is left. -/
def step (p : Progress) : Event → Progress × Bool
  | .done summary error => ({ p with outcome := some (summary, error) }, true)
  | .tick =>
    if p.outcome.isSome then (p, false)
    else ({ p with frame := (p.frame + 1) % wheel.length }, false)
  | .resize => (p, false)
  | .key name => (p, name == Bytes.ofString "q" || name == Bytes.ofString "ctrl+c")

/-- What is shown. -/
def view (profile : Display.Profile) (p : Progress) : Bytes :=
  match p.outcome with
  | some _ => []
  | none =>
    Display.styled .wheel profile (wheel.getD p.frame []) ++ " Processing..."

/-- The group that was activated, once the operation is done. -/
def activated (p : Progress) : Bytes := (p.outcome.map (·.1.activated)).getD []

/-- The error of the operation, once it is done. -/
def error? (p : Progress) : Option Bytes := p.outcome.bind (·.2)

end Progress

end Spotlight
