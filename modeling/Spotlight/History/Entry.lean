import Spotlight.Json.Printer
import Spotlight.Json.Reader

/-!
# Recorded activations

* `History.Entry` — one activation, with all it takes to undo it or to repeat it;
* `Entry.toJson`, `Entry.read` — its form in a history file.
-/

namespace Spotlight.History

open Json

/-- One recorded activation. -/
structure Entry where
  /-- The name of its snapshot, different for every activation. -/
  id : Bytes := []
  /-- When it took place, in seconds since 1970. -/
  timestamp : Int := 0
  /-- The file. -/
  path : Bytes := []
  /-- The backup of the file. -/
  backup : Bytes := []
  /-- The group that was activated. -/
  name : Bytes := []
  /-- The marker of the disabled region. -/
  marker : Bytes := []
  /-- The group behind the disabled region. -/
  anchor : Bytes := []
  /-- The function that introduces a group. -/
  keyword : Bytes := []
  /-- How the end of the group was found. -/
  scan : Bytes := []
  /-- The digest of the file before the activation. -/
  hashBefore : Bytes := []
  /-- The digest of the file after the activation. -/
  hashAfter : Bytes := []
deriving DecidableEq, Repr, Inhabited

namespace Entry

/-- An entry in a history file. -/
def toJson (e : Entry) : Value := .object
  [("id", .string e.id), ("timestamp", .number (Bytes.ofInt e.timestamp)), ("path", .string e.path),
   ("backup", .string e.backup), ("name", .string e.name), ("marker", .string e.marker),
   ("anchor", .string e.anchor), ("keyword", .string e.keyword), ("scan", .string e.scan),
   ("hash_before", .string e.hashBefore), ("hash_after", .string e.hashAfter)]

/-- Reads an entry from a history file. -/
def read : Reader Entry := Reader.record
  [⟨"id", fun e v => (Reader.string e.id v).map fun t => { e with id := t }⟩,
   ⟨"timestamp", fun e v => (Reader.int e.timestamp v).map fun n => { e with timestamp := n }⟩,
   ⟨"path", fun e v => (Reader.string e.path v).map fun t => { e with path := t }⟩,
   ⟨"backup", fun e v => (Reader.string e.backup v).map fun t => { e with backup := t }⟩,
   ⟨"name", fun e v => (Reader.string e.name v).map fun t => { e with name := t }⟩,
   ⟨"marker", fun e v => (Reader.string e.marker v).map fun t => { e with marker := t }⟩,
   ⟨"anchor", fun e v => (Reader.string e.anchor v).map fun t => { e with anchor := t }⟩,
   ⟨"keyword", fun e v => (Reader.string e.keyword v).map fun t => { e with keyword := t }⟩,
   ⟨"scan", fun e v => (Reader.string e.scan v).map fun t => { e with scan := t }⟩,
   ⟨"hash_before", fun e v =>
      (Reader.string e.hashBefore v).map fun t => { e with hashBefore := t }⟩,
   ⟨"hash_after", fun e v =>
      (Reader.string e.hashAfter v).map fun t => { e with hashAfter := t }⟩]

/-- The entry with a name and a time, unless it has its own. -/
def stamped (e : Entry) (name : Bytes) (time : Int) : Entry :=
  { e with
    id := if e.id.isEmpty then name else e.id
    timestamp := if e.timestamp = 0 then time else e.timestamp }

end Entry

end Spotlight.History
