import BlankLines.Report.Json
import BlankLines.Report.Sarif
import BlankLines.Report.Text

/-!
# Report — Format

The three formats of a report.
-/

namespace BlankLines

/-- A format of a report. -/
inductive ReportFormat where
  | text
  | json
  | sarif
deriving DecidableEq, Repr, Inhabited

namespace ReportFormat

/-- Every format. -/
def all : List ReportFormat :=
  [.text, .json, .sarif]

/-- The name of a format. -/
def name : ReportFormat → String
  | .text  => "text"
  | .json  => "json"
  | .sarif => "sarif"

/-- The format that a name means, whatever the case of its letters; no letter outside ASCII lowers
to one of these. -/
def ofName? (name : String) : Option ReportFormat :=
  let lowered := String.ofList (name.toList.map Char.toLower)
  all.find? fun f => f.name = lowered

theorem ofName?_name (f : ReportFormat) : ofName? f.name = some f := by
  cases f <;> decide +kernel

/-- Writes a report in a format; colors and notes are for the text alone. -/
def render (format : ReportFormat) (colors verbose : Bool) (reports : List FileReport) : String :=
  match format with
  | .text  => textReport colors verbose reports
  | .json  => jsonReport reports
  | .sarif => sarifReport reports

end ReportFormat

end BlankLines
