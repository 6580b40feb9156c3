import BlankLines.Proofs.Json.Documents
import BlankLines.Proofs.Json.Pretty
import BlankLines.Proofs.Json.Unique
import BlankLines.Report.Json

/-!
# Proofs — Report — the report for programs, read back

A report for programs holds all of the run: each tree with what was found in it, and the totals.
What it leaves out, the file of each diagnostic, is the path that the report of its tree goes by.

* `Diagnostic.ofDocument?`, `FileReport.ofDocument?`, `reportsOfDocument?`,
  `Summary.ofDocument?`: readers of the document.
* `jsonReport_lossless`: from the text of a report they recover the run and its totals.
-/

namespace BlankLines
open Json (Document Value)

/-! ### Readers -/

/-- A diagnostic about a file.  The rule and the message have to be those of its kind. -/
def Diagnostic.ofDocument? (file : Path) (d : Document) : Option Diagnostic := do
  let line ← d.field? "line" Document.word?
  let column ← d.field? "column" Document.word?
  let violation ← d.field? "kind" (Document.choice? Violation.name Violation.all)
  let rule ← d.field? "rule" Document.text?
  let message ← d.field? "message" Document.text?
  if rule = violation.ruleId then
    if stamped : message = violation.message then
      some { file, line, column, violation, message, stamped }
    else none
  else none

/-- What was found in a tree.  The diagnostics are about the path the report goes by. -/
def FileReport.ofDocument? (d : Document) : Option FileReport := do
  let tree ← d.field? "tree" Document.text?
  let source ← d.optional? "source" Document.text?
  let sourceUnavailable ← d.field? "source_unavailable" Document.bool?
  let r : FileReport :=
    { tree := ⟨tree⟩, source := source.map Path.mk, diagnostics := [], sourceUnavailable }
  let diagnostics ← d.field? "diagnostics" (Document.list? (Diagnostic.ofDocument? r.displayPath))
  some { r with diagnostics }

/-- What was found in a run. -/
def reportsOfDocument? (d : Document) : Option (List FileReport) :=
  d.field? "files" (Document.list? FileReport.ofDocument?)

/-- The totals of a run. -/
def Summary.ofDocument? (d : Document) : Option Summary := do
  let files ← d.field? "files" Document.natural?
  let filesWithViolations ← d.field? "files_with_violations" Document.natural?
  let violations ← d.field? "violations" Document.natural?
  let missingSeparations ← d.field? "missing_decl_separation" Document.natural?
  let unnecessaryGaps ← d.field? "unnecessary_statement_gap" Document.natural?
  let sourcesUnavailable ← d.field? "source_unavailable" Document.natural?
  some { files, filesWithViolations, violations, missingSeparations, unnecessaryGaps,
         sourcesUnavailable }

/-! ### Reading what was written -/

theorem Violation.choice?_name (v : Violation) :
    Document.choice? name all (Value.text v.name).toDocument = some v := by
  cases v <;> decide

theorem Diagnostic.ofDocument?_toJson (d : Diagnostic) :
    ofDocument? d.file d.toJson.toDocument = some d := by
  obtain ⟨file, line, column, violation, message, rfl⟩ := d
  simp [ofDocument?, toJson, Document.field?, Violation.choice?_name]

theorem Summary.ofDocument?_toJson (s : Summary) : ofDocument? s.toJson.toDocument = some s := by
  simp [ofDocument?, toJson, Document.field?]

theorem FileReport.ofDocument?_toJson {r : FileReport}
    (h : ∀ d ∈ r.diagnostics, d.file = r.displayPath) : ofDocument? r.toJson.toDocument = some r := by
  have hdiagnostics : (Value.array (r.diagnostics.map Diagnostic.toJson)).toDocument.list?
      (Diagnostic.ofDocument? r.displayPath) = some r.diagnostics :=
    Document.list?_toDocument fun d hd => h d hd ▸ d.ofDocument?_toJson
  obtain ⟨tree, source, diagnostics, sourceUnavailable⟩ := r
  cases source with
  | none =>
      simp only [displayPath, Option.getD_none] at hdiagnostics
      simp [ofDocument?, toJson, Document.field?, Document.optional?, displayPath, hdiagnostics]
  | some path =>
      simp only [displayPath, Option.getD_some] at hdiagnostics
      simp [ofDocument?, toJson, Document.field?, Document.optional?, displayPath, hdiagnostics]

/-- **The report for programs is lossless.**  It is a JSON text.  It stands for one document, from
which the whole run is recovered, with its totals: the trees in order, where their sources are or
that they name none, and all that was found.  The rule and the message of each diagnostic are those
of its kind. -/
theorem jsonReport_lossless {rs : List FileReport}
    (h : ∀ r ∈ rs, ∀ d ∈ r.diagnostics, d.file = r.displayPath) :
    (∃ doc, Json.Grammar.Element doc (jsonReport rs).toList) ∧
    ∀ doc, Json.Grammar.Element doc (jsonReport rs).toList →
      reportsOfDocument? doc = some rs ∧
      doc.field? "summary" Summary.ofDocument? = some (Summary.ofReports rs) := by
  have hvalid : Json.Grammar.Element (reportsToJson rs).toDocument (jsonReport rs).toList := by
    rw [jsonReport, Value.toPrettyText, String.toList_ofList]
    exact (Json.Grammar.value_pretty _ 0).element
  refine ⟨⟨_, hvalid⟩, fun doc hdoc => ?_⟩
  obtain rfl := hdoc.unique hvalid
  have hfiles : (Value.array (rs.map FileReport.toJson)).toDocument.list? FileReport.ofDocument? =
      some rs :=
    Document.list?_toDocument fun r hr => FileReport.ofDocument?_toJson (h r hr)
  constructor
  · simp [reportsOfDocument?, reportsToJson, Document.field?, hfiles]
  · simp [reportsToJson, Document.field?, Summary.ofDocument?_toJson]

/-- A run over trees with all that needs an escape in their names: one of them names no source, one
names a source that cannot be read. -/
def awkwardRun : List FileReport :=
  let source : Path := ⟨"src\\a\tb.go"⟩
  let tree : Path := ⟨"trees/\"quoted\"\n\x01é.json"⟩
  [{ tree := ⟨"a.json"⟩
     source := some source
     diagnostics := [.new source ⟨3, 1⟩ .missingSeparation,
       .new source ⟨18446744073709551615, 7⟩ .unnecessaryGap] },
    { tree, source := none, diagnostics := [.new tree ⟨2, 1⟩ .unnecessaryGap] },
    { tree, source := some source, diagnostics := [], sourceUnavailable := true }]

theorem jsonReport_lossless_awkwardRun :
    (∃ doc, Json.Grammar.Element doc (jsonReport awkwardRun).toList) ∧
    ∀ doc, Json.Grammar.Element doc (jsonReport awkwardRun).toList →
      reportsOfDocument? doc = some awkwardRun ∧
      doc.field? "summary" Summary.ofDocument? = some
        { files := 3, filesWithViolations := 2, violations := 3, missingSeparations := 1,
          unnecessaryGaps := 2, sourcesUnavailable := 1 } :=
  @jsonReport_lossless awkwardRun (by decide)

end BlankLines
