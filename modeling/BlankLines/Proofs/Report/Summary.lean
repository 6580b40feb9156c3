import BlankLines.Report.Summary

/-!
# Proofs — Report — what a summary counts

A diagnostic names the file it is about.  All else it says, the place and the complaint, is a
finding, and findings are what a summary counts.

* `allDiagnostics`: the diagnostics of a run.
* `Diagnostic.finding`, `FileReport.findings`, `allFindings`: what was found, in one file or in
  several.
* `Summary.violations_ofReports` and its kin: the totals count the findings.
* `Summary.hasViolations_ofReports_iff`: something was found exactly if something is in one of the
  reports.
-/

namespace BlankLines

/-- The diagnostics of several reports in order. -/
def allDiagnostics (rs : List FileReport) : List Diagnostic :=
  rs.flatMap FileReport.diagnostics

/-- What a diagnostic says but for the name of the file: a place and a complaint. -/
def Diagnostic.finding (d : Diagnostic) : Position × Violation :=
  (⟨d.line, d.column⟩, d.violation)

/-- The findings of a report. -/
def FileReport.findings (r : FileReport) : List (Position × Violation) :=
  r.diagnostics.map Diagnostic.finding

theorem FileReport.count_eq (r : FileReport) (v : Violation) :
    r.count v = r.findings.countP (·.2 = v) := by
  rw [findings, List.countP_map]
  rfl

/-- The findings of several reports. -/
def allFindings (rs : List FileReport) : List (Position × Violation) :=
  rs.flatMap FileReport.findings

theorem allFindings_cons (r : FileReport) (rest : List FileReport) :
    allFindings (r :: rest) = r.findings ++ allFindings rest := rfl

/-- Something was found exactly if there is a diagnostic in one of the reports. -/
theorem allFindings_ne_nil_iff {rs : List FileReport} :
    allFindings rs ≠ [] ↔ ∃ r ∈ rs, ∃ d, d ∈ r.diagnostics := by
  rw [allFindings, ne_eq, List.flatMap_eq_nil_iff]
  simp only [FileReport.findings, List.map_eq_nil_iff]
  simp [List.eq_nil_iff_forall_not_mem]

namespace Summary

theorem violations_ofReports (rs : List FileReport) :
    (ofReports rs).violations = (allFindings rs).length := by
  induction rs with
  | nil => rfl
  | cons r rest ih =>
      rw [allFindings_cons, List.length_append, ← ih, FileReport.findings, List.length_map]
      rfl

theorem missingSeparations_ofReports (rs : List FileReport) :
    (ofReports rs).missingSeparations = (allFindings rs).countP (·.2 = .missingSeparation) := by
  induction rs with
  | nil => rfl
  | cons r rest ih =>
      rw [allFindings_cons, List.countP_append, ← ih, ← r.count_eq]
      rfl

theorem unnecessaryGaps_ofReports (rs : List FileReport) :
    (ofReports rs).unnecessaryGaps = (allFindings rs).countP (·.2 = .unnecessaryGap) := by
  induction rs with
  | nil => rfl
  | cons r rest ih =>
      rw [allFindings_cons, List.countP_append, ← ih, ← r.count_eq]
      rfl

theorem hasViolations_ofReports_iff {rs : List FileReport} :
    (ofReports rs).hasViolations = true ↔ ∃ r ∈ rs, ∃ d, d ∈ r.diagnostics := by
  rw [hasViolations, decide_eq_true_eq, violations_ofReports, List.length_pos_iff,
    allFindings_ne_nil_iff]

end Summary

end BlankLines
