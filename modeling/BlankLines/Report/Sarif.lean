import BlankLines.Json.Value
import BlankLines.Report.Summary

/-!
# Report — Sarif

The report as a SARIF 2.1.0 log: one run, the tool with its rules, and a result for each
diagnostic.  A result points at its rule by index; `getElem?_ruleIndex` says that the index is
right.  Paths become URIs with forward slashes.
-/

namespace BlankLines
open Json (Value)

namespace Violation

/-- The name of the rule that reports a violation. -/
def ruleName : Violation → String
  | .missingSeparation => "MissingDeclSeparation"
  | .unnecessaryGap    => "UnnecessaryStatementGap"

/-- Where the rule stands among the rules. -/
def ruleIndex : Violation → Nat
  | .missingSeparation => 0
  | .unnecessaryGap    => 1

theorem getElem?_ruleIndex (v : Violation) : all[v.ruleIndex]? = some v := by
  cases v <;> rfl

end Violation

namespace Sarif

/-- The format's schema. -/
def schema : String :=
  "https://raw.githubusercontent.com/oasis-tcs/sarif-spec/master/Schemata/sarif-schema-2.1.0.json"

/-- An object with a text. -/
def message (text : String) : Value :=
  .object [("text", .text text)]

/-- A rule as the tool lists it. -/
def rule (v : Violation) : Value :=
  .object
    [("id", .text v.ruleId),
      ("name", .text v.ruleName),
      ("shortDescription", message v.message),
      ("defaultConfiguration", .object [("level", .text "warning")])]

/-- The tool and its rules. -/
def tool : Value :=
  .object
    [("driver", .object
      [("name", .text "blankline-guard"),
        ("version", .text "0.1.0"),
        ("rules", .array (Violation.all.map rule))])]

/-- A path as a URI. -/
def uri (path : Path) : String :=
  String.ofList (path.text.toList.map fun c => if c = '\\' then '/' else c)

/-- Where a diagnostic belongs. -/
def location (d : Diagnostic) : Value :=
  .object
    [("physicalLocation", .object
      [("artifactLocation", .object
        [("uri", .text (uri d.file)), ("uriBaseId", .text "%SRCROOT%")]),
        ("region", .object
          [("startLine", .number d.line.toNat), ("startColumn", .number d.column.toNat)])])]

/-- A diagnostic as a result. -/
def result (d : Diagnostic) : Value :=
  .object
    [("ruleId", .text d.violation.ruleId),
      ("ruleIndex", .number d.violation.ruleIndex),
      ("level", .text "warning"),
      ("message", message d.message),
      ("locations", .array [location d])]

/-- A run as a log. -/
def log (reports : List FileReport) : Value :=
  .object
    [("$schema", .text schema),
      ("version", .text "2.1.0"),
      ("runs", .array
        [.object
          [("tool", tool),
            ("results", .array ((reports.flatMap FileReport.diagnostics).map result))]])]

end Sarif

/-- The report as a SARIF log. -/
def sarifReport (reports : List FileReport) : String :=
  (Sarif.log reports).toPrettyText

end BlankLines
