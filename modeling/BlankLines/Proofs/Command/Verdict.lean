import BlankLines.Proofs.Command.Failing
import BlankLines.Proofs.Command.Rerun
import BlankLines.Proofs.Report.Summary

/-!
# Proofs — Command — the verdict of a check

A check finds its reports before it shows them.  How they are shown, in which format, in which
colors, how loudly and where, has no part in what is found, and the exit code is about that alone.

* `CheckArgs.Finds`: the reports of a check.
* `CommandLine.Shows`: what a check leaves that shows them.
* `CommandLine.run_verdict`: the exit code says whether something was found; two checks that are
  shown differently end alike; and what is saved is what would have been printed.
-/

namespace BlankLines

variable {fs : FileSystem}

/-! ### What is found -/

namespace CheckArgs

/-- What a check finds: the reports on the trees it looks for. -/
def Finds (a : CheckArgs) (noConfig : Bool) (fs : FileSystem) (reports : List FileReport) : Prop :=
  ∃ rules paths, a.trees fs.disk noConfig = .ok (rules, paths) ∧
    rules.reportFiles fs.disk paths = .ok reports

variable {a : CheckArgs} {noConfig : Bool} {reports reports' : List FileReport}

theorem Finds.unique (h : a.Finds noConfig fs reports) (h' : a.Finds noConfig fs reports') :
    reports' = reports := by
  obtain ⟨rules, paths, ht, hr⟩ := h
  obtain ⟨rules', paths', ht', hr'⟩ := h'
  cases ht.symm.trans ht'
  exact Except.ok.inj (hr'.symm.trans hr)

/-- The same check with its report in another format or another place. -/
def shownAs (a : CheckArgs) (format : ReportFormat) (output : Option Path) : CheckArgs :=
  { a with format, output }

/-- What is found does not depend on how it is shown. -/
theorem finds_shownAs_iff {format : ReportFormat} {output : Option Path} :
    (a.shownAs format output).Finds noConfig fs reports ↔ a.Finds noConfig fs reports :=
  Iff.rfl

/-- What a check makes is made of what it finds. -/
theorem result_plan_eq_ok_iff {cl : CommandLine} {colors : Bool} {product : Product} :
    (Id.run (a.plan fs.disk cl colors)).result = .ok product ↔
      ∃ reports, a.Finds cl.noConfig fs reports ∧
        a.product cl.quiet colors (0 < cl.verbose) reports = product := by
  rw [result_plan_eq]
  refine bind_eq_ok_iff.trans ?_
  simp only [map_eq_ok_iff, Finds]
  constructor
  · rintro ⟨⟨rules, paths⟩, ht, reports, hr, h⟩
    exact ⟨reports, ⟨rules, paths, ht, hr⟩, h⟩
  · rintro ⟨reports, ⟨rules, paths, ht, hr⟩, h⟩
    exact ⟨(rules, paths), ht, reports, hr, h⟩

theorem exitCode_eq_violations_iff :
    a.exitCode reports = exitViolations ↔
      a.warnOnly = false ∧ ∃ r ∈ reports, ∃ d, d ∈ r.diagnostics := by
  have hclean : reports.all FileReport.isClean = false ↔ ∃ r ∈ reports, ∃ d, d ∈ r.diagnostics := by
    simp [FileReport.isClean, List.eq_nil_iff_forall_not_mem]
  rw [← hclean, ← Bool.or_eq_false_iff]
  unfold exitCode
  split
  next h => simp [h, exitSuccess, exitViolations]
  next h => simp [h]

theorem exitCode_eq_success_or (a : CheckArgs) (reports : List FileReport) :
    a.exitCode reports = exitSuccess ∨ a.exitCode reports = exitViolations := by
  unfold exitCode
  split
  · exact .inl rfl
  · exact .inr rfl

end CheckArgs

/-! ### How it is shown -/

namespace CommandLine

variable {cl : CommandLine} {a : CheckArgs} {w : Surroundings}

/-- The text of a report as a command line asks for it. -/
def reportText (cl : CommandLine) (w : Surroundings) (a : CheckArgs) (reports : List FileReport) :
    String :=
  a.format.render (cl.color.colors w.terminal) (0 < cl.verbose) reports

/-- The saving of a report, the directories above it included. -/
def saving (path : Path) (text : String) : Saving :=
  ⟨path, path.parent?.any fun parent => !parent.text.isEmpty, text⟩

/-- What a check leaves that shows its reports: the text is printed and nothing is saved, or it is
saved and nothing is printed. -/
structure Shows (w : Surroundings) (cl : CommandLine) (a : CheckArgs) (fs : FileSystem)
    (reports : List FileReport) (outcome : Outcome) : Prop where
  exitCode : outcome.exitCode = a.exitCode reports
  printed : a.output = none → outcome.files = fs ∧
    outcome.stdout = if cl.quiet then "" else cl.reportText w a reports
  saved : ∀ path, a.output = some path → outcome.stdout = "" ∧
    ((saving path (cl.reportText w a reports)).perform w.break?).run fs = (.ok (), outcome.files)

/-- A check that is not an error shows what it finds. -/
theorem shows_of_ne (hcl : cl.command = .check a)
    (hexit : (cl.runIn w fs).exitCode ≠ exitError) :
    ∃ reports, a.Finds cl.noConfig fs reports ∧
      Shows w cl a fs reports (cl.runIn w fs) := by
  rw [runIn_eq hcl] at hexit ⊢
  have hran := Plan.ran_run (Id.run (a.plan fs.disk cl (cl.color.colors w.terminal))) w fs
  generalize Plan.run _ w fs = outcome at hexit hran ⊢
  cases hran with
  | failed => exact absurd rfl hexit
  | unsaved => exact absurd rfl hexit
  | printed h hs =>
      obtain ⟨reports, hfinds, rfl⟩ := CheckArgs.result_plan_eq_ok_iff.1 h
      have hout : a.output = none := Option.map_eq_none_iff.1 hs
      refine ⟨reports, hfinds, rfl, fun _ => ⟨rfl, ?_⟩, fun path hpath => ?_⟩
      · simp [CheckArgs.product, hout, reportText]
      · cases hout.symm.trans hpath
  | saved h hs hrun =>
      obtain ⟨reports, hfinds, rfl⟩ := CheckArgs.result_plan_eq_ok_iff.1 h
      obtain ⟨path, hout, rfl⟩ := Option.map_eq_some_iff.1 hs
      refine ⟨reports, hfinds, rfl, fun hnone => ?_, fun path' hpath => ⟨?_, ?_⟩⟩
      · cases hout.symm.trans hnone
      · simp [CheckArgs.product, hout]
      · obtain rfl := Option.some.inj (hout.symm.trans hpath)
        exact hrun

/-- A check that finds reports, and can save its own if it is to, is not an error. -/
theorem ne_of_finds (hcl : cl.command = .check a) {reports : List FileReport}
    (h : a.Finds cl.noConfig fs reports)
    (hsaves : ∀ s, (a.product cl.quiet (cl.color.colors w.terminal) (0 < cl.verbose) reports).saving =
      some s → ∃ fs', (s.perform w.break?).run fs = (.ok (), fs')) :
    (cl.runIn w fs).exitCode ≠ exitError := by
  have hproduct : (Id.run (a.plan fs.disk cl (cl.color.colors w.terminal))).result =
      .ok (a.product cl.quiet (cl.color.colors w.terminal) (0 < cl.verbose) reports) :=
    CheckArgs.result_plan_eq_ok_iff.2 ⟨reports, h, rfl⟩
  rw [runIn_eq hcl]
  have hran := Plan.ran_run (Id.run (a.plan fs.disk cl (cl.color.colors w.terminal))) w fs
  generalize Plan.run _ w fs = outcome at hran ⊢
  cases hran with
  | failed hfailed => cases hproduct.symm.trans hfailed
  | unsaved hplanned hs hrun =>
      obtain rfl := Except.ok.inj (hproduct.symm.trans hplanned)
      obtain ⟨fs', hsaved⟩ := hsaves _ hs
      cases hrun.symm.trans hsaved
  | printed hplanned =>
      obtain rfl := Except.ok.inj (hproduct.symm.trans hplanned)
      exact a.exitCode_ne reports
  | saved hplanned =>
      obtain rfl := Except.ok.inj (hproduct.symm.trans hplanned)
      exact a.exitCode_ne reports

/-- Where nothing is to be saved, what is found is shown. -/
theorem shows_of_finds (hcl : cl.command = .check a) (hout : a.output = none)
    {reports : List FileReport} (h : a.Finds cl.noConfig fs reports) :
    Shows w cl a fs reports (cl.runIn w fs) := by
  have hne : (cl.runIn w fs).exitCode ≠ exitError :=
    ne_of_finds hcl h fun s hs => by simp [CheckArgs.product, hout] at hs
  obtain ⟨reports', h', hshows⟩ := shows_of_ne hcl hne
  rwa [h.unique h'] at hshows

end CommandLine

/-! ### What is saved -/

/-- The bytes of a text are read as that text. -/
theorem FileSystem.textOf_toUTF8 (text : String) : textOf (.file text.toUTF8) = .ok text := by
  have hread : String.fromUTF8? text.toUTF8 = some text := by
    unfold String.fromUTF8?
    exact dif_pos text.isValidUTF8
  rw [textOf, hread]

/-- A text that was saved can be read where it was saved. -/
theorem Saving.readText_of_run {s : Saving} {break? : Option Break} {fs fs' : FileSystem}
    (hr : fs.Rooted) (hrun : (s.perform break?).run fs = (.ok (), fs')) : fs'.readText s.path = .ok s.text := by
  obtain ⟨o, hdone⟩ := Saving.exists_done hr hrun
  rw [FileSystem.readText_eq hdone.there fun _ _ => rfl]
  exact FileSystem.textOf_toUTF8 s.text

/-- **The verdict of a check.**  Of a check that is not an error:
* The exit code is that of violations exactly if there is a diagnostic in one of the reports, which
  is what the summary says as well, and violations are not only warned of; else it is that of
  success.
* Whatever else is said about verbosity, quiet, color, format and the place of the report, the exit
  code is the same, if the report can be saved there.
* A report that is saved is the text that the check prints when it is to save none and not to be
  quiet, on the same terminal. -/
theorem CommandLine.run_verdict {cl : CommandLine} {a : CheckArgs} (hcl : cl.command = .check a)
    (w : Surroundings) (fs : FileSystem) (hexit : (cl.runIn w fs).exitCode ≠ exitError) :
    (∃ reports, a.Finds cl.noConfig fs reports ∧
      ((cl.runIn w fs).exitCode = exitViolations ↔
        a.warnOnly = false ∧ ∃ r ∈ reports, ∃ d, d ∈ r.diagnostics) ∧
      ((cl.runIn w fs).exitCode ≠ exitViolations →
        (cl.runIn w fs).exitCode = exitSuccess) ∧
      ((Summary.ofReports reports).hasViolations = true ↔ ∃ r ∈ reports, ∃ d, d ∈ r.diagnostics)) ∧
    (∀ (cl' : CommandLine) (format : ReportFormat) (output : Option Path) (w' : Surroundings),
      cl'.command = .check (a.shownAs format output) → cl'.noConfig = cl.noConfig →
      (cl'.runIn w' fs).exitCode ≠ exitError →
      (cl'.runIn w' fs).exitCode = (cl.runIn w fs).exitCode) ∧
    ∀ path, a.output = some path → fs.Rooted →
      (cl.runIn w fs).files.readText path =
        .ok (({ cl with quiet := false, command := .check (a.shownAs a.format none) } :
          CommandLine).runIn w fs).stdout := by
  obtain ⟨reports, hfinds, hshows⟩ := shows_of_ne hcl hexit
  refine ⟨⟨reports, hfinds, ?_, fun hne => ?_, Summary.hasViolations_ofReports_iff⟩, ?_, ?_⟩
  · rw [hshows.exitCode]
    exact CheckArgs.exitCode_eq_violations_iff
  · rw [hshows.exitCode] at hne ⊢
    exact (CheckArgs.exitCode_eq_success_or a reports).resolve_right hne
  · intro cl' format output w' hcl' hconfig hexit'
    obtain ⟨reports', hfinds', hshows'⟩ := shows_of_ne hcl' hexit'
    rw [hconfig, CheckArgs.finds_shownAs_iff] at hfinds'
    obtain rfl := hfinds.unique hfinds'
    rw [hshows.exitCode, hshows'.exitCode]
    rfl
  · intro path hpath hr
    obtain ⟨-, hrun⟩ := hshows.saved path hpath
    have hplain : Shows w
        { cl with quiet := false, command := .check (a.shownAs a.format none) }
        (a.shownAs a.format none) fs reports _ :=
      shows_of_finds rfl rfl (CheckArgs.finds_shownAs_iff.2 hfinds)
    rw [(hplain.printed rfl).2]
    exact Saving.readText_of_run hr hrun

/-! ### A report that is saved quietly -/

/-- A tree with its source, which has no blank line between two declarations. -/
def crowdedFiles : FileSystem :=
  besideSource "var a\ntype b\n".toUTF8

/-- A check that says as little as it can, and saves its report. -/
def quietCheck : CommandLine where
  quiet := true
  color := .always
  command := .check { paths := [⟨"a.json"⟩], output := some ⟨"report.txt"⟩ }

/-- Violations in the one tree that is checked: to be quiet and to save the report changes
neither the exit code nor the report. -/
theorem CommandLine.run_verdict_quiet :
    (quietCheck.run crowdedFiles).exitCode = exitViolations ∧
      (quietCheck.run crowdedFiles).files.readText ⟨"report.txt"⟩ =
        .ok (({ color := .always, command := .check { paths := [⟨"a.json"⟩] } } : CommandLine).run
          crowdedFiles).stdout := by
  have hexit : (quietCheck.run crowdedFiles).exitCode = exitViolations := by
    decide +kernel
  have hcommand : quietCheck.command =
      .check { paths := [⟨"a.json"⟩], output := some ⟨"report.txt"⟩ } := rfl
  have hne : (quietCheck.run crowdedFiles).exitCode ≠ exitError := by
    rw [hexit]
    decide
  obtain ⟨-, -, hsaved⟩ := run_verdict hcommand {} crowdedFiles hne
  exact ⟨hexit, hsaved ⟨"report.txt"⟩ rfl ⟨_, rfl⟩⟩

end BlankLines
