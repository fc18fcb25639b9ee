import Spotlight.Markup.Html
import Spotlight.Report.Markdown
import Spotlight.Text.Quoted

/-!
# Formats of a report

* `Report.Format` — plain text, markdown or HTML;
* `Report.render` — the report in a format, and the number of failed assertions;
* `Report.Fault` — why there is no report.
-/

namespace Spotlight.Report

/-- The formats of a report. -/
inductive Format
  /-- Plain text. -/
  | text
  /-- A markdown document. -/
  | markdown
  /-- An HTML fragment. -/
  | html
deriving DecidableEq, Repr

/-- The format of that name; plain text is the default. -/
def Format.ofName? (name : Bytes) : Option Format :=
  if name = "text" || name.isEmpty then some .text
  else if name = "markdown" then some .markdown
  else if name = "html" then some .html
  else none

/-- What is said of an unknown format. -/
def Format.unknown (name : Bytes) : Bytes :=
  "unknown report format " ++ Quoted.text name ++ " (want text, markdown or html)"

/-- The report in a format, and the number of failed assertions. The layout is for plain text. -/
def render (r : Results) (format : Format) (layout : Layout) : Bytes × Nat :=
  match format with
  | .text => plain layout r
  | .markdown => (markdown r, r.countFailed)
  | .html => (Markup.html (markdown r), r.countFailed)

end Spotlight.Report
