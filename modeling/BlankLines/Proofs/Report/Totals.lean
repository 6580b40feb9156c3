import BlankLines.Proofs.Command.Verdict
import BlankLines.Proofs.Report.Text

/-!
# Proofs — Report — totals that go together

A summary has six counters, each added up by itself.  They add up over any division of a run, in any
order of its reports, and they go together: what relates them in the summary of one report relates
them in a sum as well.  So the line that sums a run up says the same as its exit code, though that
is not made of the summary.

* `Summary.ofReports_perm`: the order of the reports does not matter.
* `Summary.Consistent`, `Summary.consistent_ofReports`: what relates the counters.
* `textReport_ends_iff`: the report for people ends with the line of success exactly if nothing was
  found.
* `Summary.ofReports_totals`: all of this together.
-/

namespace BlankLines

variable {rs rs' : List FileReport}

/-! ### Adding up -/

namespace Summary

theorem add_comm (a b : Summary) : a + b = b + a := by
  simp only [add_def, add, Nat.add_comm]

theorem ofReports_perm (h : rs.Perm rs') : ofReports rs = ofReports rs' := by
  induction h with
  | nil => rfl
  | cons r _ ih => rw [ofReports, ofReports, ih]
  | swap r r' rest =>
      rw [ofReports, ofReports, ofReports, ofReports, ← add_assoc, ← add_assoc,
        add_comm (ofReport r')]
  | trans _ _ ih ih' => exact ih.trans ih'

theorem files_ofReports (rs : List FileReport) : (ofReports rs).files = rs.length := by
  induction rs with
  | nil => rfl
  | cons r rest ih => rw [List.length_cons, ← ih, Nat.add_comm]; rfl

/-! ### What relates the counters -/

/-- What relates the counters of a run: a violation is of one kind or the other, a file with
violations is a file and has one of them at least, and there are such files exactly if there are
violations; a file whose source is unavailable is a file. -/
structure Consistent (s : Summary) : Prop where
  kinds : s.violations = s.missingSeparations + s.unnecessaryGaps
  withViolations_le_files : s.filesWithViolations ≤ s.files
  withViolations_le_violations : s.filesWithViolations ≤ s.violations
  withViolations_eq_zero_iff : s.filesWithViolations = 0 ↔ s.violations = 0
  unavailable_le_files : s.sourcesUnavailable ≤ s.files

theorem Consistent.add {a b : Summary} (ha : a.Consistent) (hb : b.Consistent) :
    (a + b).Consistent := by
  have hzero := ha.withViolations_eq_zero_iff
  have hzero' := hb.withViolations_eq_zero_iff
  constructor <;> simp only [add_def, Summary.add]
  · rw [ha.kinds, hb.kinds]
    omega
  · exact Nat.add_le_add ha.withViolations_le_files hb.withViolations_le_files
  · exact Nat.add_le_add ha.withViolations_le_violations hb.withViolations_le_violations
  · omega
  · exact Nat.add_le_add ha.unavailable_le_files hb.unavailable_le_files

/-- A diagnostic is of one kind or the other. -/
theorem length_eq_count_add_count (r : FileReport) :
    r.diagnostics.length = r.count .missingSeparation + r.count .unnecessaryGap := by
  have hother : (fun d : Diagnostic => decide (d.violation = .unnecessaryGap)) =
      fun d => decide ¬ decide (d.violation = .missingSeparation) = true := by
    funext d
    cases d.violation <;> rfl
  rw [FileReport.count, FileReport.count, hother]
  exact List.length_eq_countP_add_countP _

theorem consistent_ofReport (r : FileReport) : (ofReport r).Consistent where
  kinds := length_eq_count_add_count r
  withViolations_le_files := by
    simp only [ofReport]
    split <;> decide
  withViolations_le_violations := by
    simp only [ofReport, FileReport.isClean, List.isEmpty_iff]
    split
    · exact Nat.zero_le _
    next h => exact List.length_pos_iff.2 h
  withViolations_eq_zero_iff := by
    simp only [ofReport, FileReport.isClean, List.isEmpty_iff, List.length_eq_zero_iff]
    split
    next h => exact iff_of_true rfl h
    next h => exact iff_of_false Nat.one_ne_zero h
  unavailable_le_files := by
    simp only [ofReport]
    split <;> decide

/-- **The counters of a run go together**, since those of each report do. -/
theorem consistent_ofReports (rs : List FileReport) : (ofReports rs).Consistent := by
  induction rs with
  | nil => exact ⟨rfl, Nat.le_refl _, Nat.le_refl _, Iff.rfl, Nat.le_refl _⟩
  | cons r rest ih => exact (consistent_ofReport r).add ih

end Summary

/-! ### The line that sums up -/

/-- The line of a run in which nothing was found. -/
def successLine (files : Nat) : ReportLine :=
  inked .green ("No blank-line violations in " ++ toString files ++ " file(s)")

/-- What stands behind the text of a line in one ink. -/
def closing (colors : Bool) : String :=
  (if colors then Ink.stop else "") ++ "\n"

theorem suffix_renderLine_inked (colors : Bool) (ink : Ink) (before last : String) :
    (last ++ closing colors).toList <:+ (renderLine colors (inked ink (before ++ last))).toList := by
  refine ⟨((if colors then ink.start else "") ++ before).toList, ?_⟩
  rw [← String.toList_append, String.toList_inj]
  cases colors <;> simp [renderLine, inked, Fragment.render, closing, String.append_assoc]

/-- Neither of the two lines that sum up ends as the other one does. -/
theorem endings_apart : ∀ colors : Bool,
    ¬ (" file(s)" ++ closing colors).toList <:+
        (" unnecessary statement gap" ++ closing colors).toList ∧
      ¬ (" unnecessary statement gap" ++ closing colors).toList <:+
        (" file(s)" ++ closing colors).toList := by
  decide

/-- A report for people ends with the line that sums up. -/
theorem suffix_textReport (colors verbose : Bool) (rs : List FileReport) :
    (renderLine colors (Summary.ofReports rs).line).toList <:+
      (textReport colors verbose rs).toList := by
  rw [textReport, textLines, renderLines, List.map_append, String.join_append, String.toList_append]
  simp

/-- **The line of success** ends the report exactly if nothing was found. -/
theorem textReport_ends_iff (colors verbose : Bool) (rs : List FileReport) :
    (renderLine colors (successLine rs.length)).toList <:+ (textReport colors verbose rs).toList ↔
      (Summary.ofReports rs).hasViolations = false := by
  have hsum := suffix_textReport colors verbose rs
  constructor
  · intro h
    rw [Bool.eq_false_iff]
    intro hfound
    rw [Summary.line, if_pos hfound] at hsum
    have hsuccess := (suffix_renderLine_inked colors .green _ " file(s)").trans h
    have hfailure := (suffix_renderLine_inked colors .red _ " unnecessary statement gap").trans hsum
    rcases List.suffix_or_suffix_of_suffix hsuccess hfailure with hends | hends
    · exact (endings_apart colors).1 hends
    · exact (endings_apart colors).2 hends
  · intro h
    rwa [Summary.line, if_neg (by simp [h]), Summary.files_ofReports] at hsum

/-- The exit code of a check that does not only warn says whether something was found. -/
theorem CheckArgs.exitCode_eq_success_iff (a : CheckArgs) (rs : List FileReport) :
    { a with warnOnly := false }.exitCode rs = exitSuccess ↔
      (Summary.ofReports rs).hasViolations = false := by
  have hviolations : { a with warnOnly := false }.exitCode rs = exitViolations ↔
      (Summary.ofReports rs).hasViolations = true := by
    rw [exitCode_eq_violations_iff, Summary.hasViolations_ofReports_iff]
    simp
  rw [Bool.eq_false_iff, ne_eq, ← hviolations]
  rcases exitCode_eq_success_or { a with warnOnly := false } rs with h | h <;>
    simp [h, exitSuccess, exitViolations]

/-! ### All of it -/

/-- **The totals of a run.**
* The summary of two runs together is the sum of theirs, counter by counter.
* The order of the reports does not matter.
* The counters go together: violations are those of either kind, files with violations are no more
  than files and no more than violations and there are some exactly if there are violations, and
  sources that are unavailable are no more than files.
* They count the diagnostics and the reports there are.
* The report for people, colored or not and with its notes or not, ends with the line of success
  exactly if a check that does not only warn exits with success. -/
theorem Summary.ofReports_totals (xs ys : List FileReport) :
    ofReports (xs ++ ys) =
      { files := (ofReports xs).files + (ofReports ys).files
        filesWithViolations :=
          (ofReports xs).filesWithViolations + (ofReports ys).filesWithViolations
        violations := (ofReports xs).violations + (ofReports ys).violations
        missingSeparations := (ofReports xs).missingSeparations + (ofReports ys).missingSeparations
        unnecessaryGaps := (ofReports xs).unnecessaryGaps + (ofReports ys).unnecessaryGaps
        sourcesUnavailable :=
          (ofReports xs).sourcesUnavailable + (ofReports ys).sourcesUnavailable } ∧
    (xs.Perm ys → ofReports xs = ofReports ys) ∧
    (ofReports xs).Consistent ∧
    (ofReports xs).violations = (allDiagnostics xs).length ∧
    (ofReports xs).files = xs.length ∧
    ∀ (a : CheckArgs) (colors verbose : Bool),
      (renderLine colors (successLine xs.length)).toList <:+
          (textReport colors verbose xs).toList ↔
        { a with warnOnly := false }.exitCode xs = exitSuccess := by
  refine ⟨ofReports_append xs ys, ofReports_perm, consistent_ofReports xs, ?_, files_ofReports xs,
    fun a colors verbose => ?_⟩
  · rw [violations_ofReports, allFindings, allDiagnostics, List.length_flatMap,
      List.length_flatMap]
    simp only [FileReport.findings, List.length_map]
  · rw [textReport_ends_iff, a.exitCode_eq_success_iff]

/-- Three reports: one with violations of both kinds, a clean one without its source, and one with a
gap. -/
def mixedRun : List FileReport :=
  [{ tree := ⟨"a.json"⟩, source := some ⟨"a.go"⟩,
      diagnostics :=
        [.new ⟨"a.go"⟩ ⟨2, 1⟩ .missingSeparation, .new ⟨"a.go"⟩ ⟨9, 1⟩ .unnecessaryGap,
          .new ⟨"a.go"⟩ ⟨9, 1⟩ .unnecessaryGap] },
    { tree := ⟨"b.json"⟩, source := none, diagnostics := [], sourceUnavailable := true },
    { tree := ⟨"c.json"⟩, source := some ⟨"c.go"⟩,
      diagnostics := [.new ⟨"c.go"⟩ ⟨4, 1⟩ .unnecessaryGap] }]

/-- In the opposite order they come to the same totals. -/
theorem Summary.ofReports_totals_mixedRun :
    mixedRun.Perm mixedRun.reverse ∧ ofReports mixedRun = ofReports mixedRun.reverse ∧
      ofReports mixedRun.reverse = ⟨3, 2, 4, 1, 3, 1⟩ := by
  have hperm := (List.reverse_perm mixedRun).symm
  exact ⟨hperm, (ofReports_totals mixedRun mixedRun.reverse).2.1 hperm, by decide⟩

end BlankLines
