import Spotlight.Text.Quoted

/-!
# What to activate, and why it can fail

* `Options` — the texts that drive one activation, with their defaults;
* `Fault` — the reasons an activation is refused;
* `Fault.message` — the wording of each;
* `Options.check` — can the options drive an activation at all?
-/

namespace Spotlight

/-- The texts that drive one activation. -/
structure Options where
  /-- The literal text that opens the disabled region. It starts with a comment opening. -/
  marker : Bytes := "/* // Comment out ALL other describe blocks"
  /-- The name of the group right after the region, which is always enabled. -/
  anchor : Bytes := "Precision Methods"
  /-- The function that introduces a group. -/
  keyword : Bytes := "describe"
  /-- The group to activate. -/
  name : Bytes := "constructor"
  /-- How the end of a group is found; empty means balanced. -/
  scan : Bytes := "balanced"
deriving DecidableEq, Repr, Inhabited

/-- Why an activation is refused. -/
inductive Fault
  /-- The marker does not open a comment. -/
  | markerNoComment (marker : Bytes)
  /-- One of the texts that must be given is empty; the field is named. -/
  | emptyText (field : Bytes)
  /-- The way to find the end of a group is unknown. -/
  | unknownScan (scan : Bytes)
  /-- A text of the region search is not valid UTF-8. The search is given as a regular expression
  from the malformed byte on. -/
  | malformedSearch (rest : Bytes)
  /-- There is no marker with a close and the anchor after it. -/
  | regionNotFound (marker keyword anchor : Bytes)
  /-- There are two disabled regions. -/
  | ambiguousRegion (marker : Bytes)
  /-- The disabled region has no group of that name. -/
  | groupNotFound (keyword name : Bytes)
  /-- The disabled region has two groups of that name. -/
  | ambiguousGroup (keyword name : Bytes)
  /-- The body of the group has no closing brace. -/
  | unbalancedGroup (keyword name : Bytes)
  /-- The call around the group has no closing parenthesis. -/
  | unclosedCall (keyword name : Bytes)
  /-- The name or the keyword of a group search is not valid UTF-8. -/
  | malformedName
deriving DecidableEq, Repr

namespace Fault

/-- A call of the keyword with the name, as messages show it. -/
def call (keyword name : Bytes) : Bytes := keyword ++ "(" ++ Quoted.text name ++ ")"

/-- The wording of a fault. -/
def message : Fault → Bytes
  | markerNoComment marker =>
    "invalid transform options: marker " ++ Quoted.text marker ++ " must open a block comment"
  | emptyText field => "invalid transform options: " ++ field ++ " is empty"
  | unknownScan scan => "invalid transform options: unknown scan mode " ++ Quoted.text scan
  | malformedSearch rest =>
    "invalid transform options: error parsing regexp: invalid UTF-8: `" ++ rest ++ "`"
  | regionNotFound marker keyword anchor =>
    "disabled region not found: marker " ++ Quoted.text marker ++ " before " ++ call keyword anchor
  | ambiguousRegion marker =>
    "disabled region matched more than once: marker " ++ Quoted.text marker
  | groupNotFound keyword name =>
    "named group not found in disabled region: " ++ call keyword name
  | ambiguousGroup keyword name => "named group matched more than once: " ++ call keyword name
  | unbalancedGroup keyword name => "named group has no matching close: " ++ call keyword name
  | unclosedCall keyword name =>
    "named group has no matching close: " ++ call keyword name ++ " is not followed by ')'"
  | malformedName => "internal panic"

end Fault

namespace Options

/-- Is the end of a group the nearest closing triple, instead of the brace that balances? -/
def isHeuristic (o : Options) : Bool := o.scan == Bytes.ofString "heuristic"

/-- Is the way to find the end of a group a known one? -/
def hasKnownScan (o : Options) : Bool :=
  o.scan.isEmpty || o.scan == Bytes.ofString "balanced" || o.isHeuristic

/-- Refuses options that cannot drive an activation. -/
def check (o : Options) : Except Fault Unit :=
  if !o.marker.startsWith "/*" then .error (.markerNoComment o.marker)
  else if o.anchor.isEmpty then .error (.emptyText "anchor")
  else if o.keyword.isEmpty then .error (.emptyText "keyword")
  else if o.name.isEmpty then .error (.emptyText "name")
  else if !o.hasKnownScan then .error (.unknownScan o.scan)
  else .ok ()

end Options

end Spotlight
