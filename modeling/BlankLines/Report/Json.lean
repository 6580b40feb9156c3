import BlankLines.Json.Value
import BlankLines.Report.Summary

/-!
# Report — Json

The report for programs: the totals, and for each tree what was found in it.  A tree that names no
source has no field for one.
-/

namespace BlankLines
open Json (Value)

/-- A summary as JSON. -/
def Summary.toJson (s : Summary) : Value :=
  .object
    [("files", .number s.files),
      ("files_with_violations", .number s.filesWithViolations),
      ("violations", .number s.violations),
      ("missing_decl_separation", .number s.missingSeparations),
      ("unnecessary_statement_gap", .number s.unnecessaryGaps),
      ("source_unavailable", .number s.sourcesUnavailable)]

/-- A diagnostic as JSON; the file is that of its report. -/
def Diagnostic.toJson (d : Diagnostic) : Value :=
  .object
    [("line", .number d.line.toNat),
      ("column", .number d.column.toNat),
      ("kind", .text d.violation.name),
      ("rule", .text d.violation.ruleId),
      ("message", .text d.message)]

/-- A report as JSON. -/
def FileReport.toJson (r : FileReport) : Value :=
  let source := match r.source with
    | some path => [("source", Value.text path.text)]
    | none      => []
  .object ([("tree", Value.text r.tree.text)] ++ source ++
    [("source_unavailable", .bool r.sourceUnavailable),
      ("diagnostics", .array (r.diagnostics.map Diagnostic.toJson))])

/-- A run as JSON. -/
def reportsToJson (reports : List FileReport) : Value :=
  .object
    [("summary", (Summary.ofReports reports).toJson),
      ("files", .array (reports.map FileReport.toJson))]

/-- The report for programs. -/
def jsonReport (reports : List FileReport) : String :=
  (reportsToJson reports).toPrettyText

end BlankLines
