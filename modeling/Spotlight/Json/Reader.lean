import Spotlight.Json.Value

/-!
# Reading records from JSON

A reader fills in a value of a type from a JSON value. It is given what is already there, because a
key may be repeated: the later value is then read over the earlier one.

* `Json.Reader` — a reader for a type; it fails on a value of the wrong kind;
* `Json.Reader.record` — a record from an object. Keys match without regard to case, and unknown
  keys are left out;
* `Json.Reader.list` — a list from an array, item over item.
-/

namespace Spotlight.Json

open Bytes

/-- Reads a JSON value over a value that is already there. -/
abbrev Reader (α : Type) := α → Value → Option α

namespace Reader

/-- A string; `null` changes nothing. -/
def string : Reader Bytes
  | old, .null => some old
  | _, .string t => some t
  | _, _ => none

/-- A number as it was written, or a string that holds a number; `null` changes nothing. -/
def number : Reader Bytes
  | old, .null => some old
  | _, .number n => some n
  | _, .string t => if isNumber t then some t else none
  | _, _ => none

/-- The integer a text stands for, digits with perhaps a minus sign, if it fits into 64 bits. -/
def int64? (s : Bytes) : Option Int :=
  let (minus, ds) := Json.sign s
  if ds.isEmpty || !ds.all isDigit then none
  else
    let n : Int := digitsValue ds
    let n := if minus.isEmpty then n else -n
    if -0x8000000000000000 ≤ n && n < 0x8000000000000000 then some n else none

/-- An integer of 64 bits, written without point and exponent; `null` changes nothing. -/
def int : Reader Int
  | old, .null => some old
  | _, .number n => int64? n
  | _, _ => none

/-- Reads items over the items that are there; further ones start from `fresh`. -/
def items {α : Type} (item : Reader α) (fresh : α) : List α → List Value → Option (List α)
  | _, [] => some []
  | olds, v :: vs => do
    let a ← item (olds.headD fresh) v
    return a :: (← items item fresh olds.tail vs)

/-- A list; `null` empties it. -/
def list {α : Type} (item : Reader α) (fresh : α) : Reader (List α)
  | _, .null => some []
  | olds, .array vs => items item fresh olds vs
  | _, _ => none

/-- A value that may be missing; `null` removes it. -/
def optional {α : Type} (item : Reader α) (fresh : α) : Reader (Option α)
  | _, .null => some none
  | old, v => (item (old.getD fresh) v).map some

/-- A character without regard to case, for a comparison with an ASCII name. -/
def foldCase (code : Nat) : Nat :=
  if 0x61 ≤ code && code ≤ 0x7a then code - 0x20
  else if code = 0x17f then 0x53
  else if code = 0x212a then 0x4b
  else code

/-- A key without regard to case. -/
def foldKey (key : Bytes) : List Nat := (Rune.ofBytes key).map fun r => foldCase r.code

/-- A field of a record: its key, and how it is read. -/
structure Field (σ : Type) where
  /-- The key. -/
  key : Bytes
  /-- Reads the field of a record. -/
  read : Reader σ

/-- The field a key stands for: the one of that very key, or one that differs in case. -/
def field? {σ : Type} (fields : List (Field σ)) (key : Bytes) : Option (Field σ) :=
  (fields.find? fun f => f.key == key).or
    (fields.find? fun f => foldKey f.key == foldKey key)

/-- Reads the members of an object into a record, one after the other. -/
def members {σ : Type} (fields : List (Field σ)) : σ → List (Bytes × Value) → Option σ
  | s, [] => some s
  | s, (key, v) :: ms =>
    match field? fields key with
    | none => members fields s ms
    | some f => (f.read s v).bind fun s => members fields s ms

/-- A record; `null` changes nothing. -/
def record {σ : Type} (fields : List (Field σ)) : Reader σ
  | s, .null => some s
  | s, .object ms => members fields s ms
  | _, _ => none

end Reader

end Spotlight.Json
