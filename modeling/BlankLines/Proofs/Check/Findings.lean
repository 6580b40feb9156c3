import Mathlib.Data.List.Perm.Subperm
import BlankLines.Proofs.Check.Reports
import BlankLines.Proofs.Files.Spelling
import BlankLines.Proofs.Report.Summary

/-!
# Proofs — Check — what is found, whatever the file is called

What is found in a tree follows from what it and its source hold.  The name of the file is in each
diagnostic but in no finding, so a tree that is met under another spelling has the same findings.

* `Rules.findings_analyze`: the name of a file has no part in what is found in it.
* `Rules.findings?_eq_of_same`: two spellings of a tree, and the same findings.
* `Rules.exists_reportFiles_of_findings?`: trees that are told apart, each with the findings of one
  of the reports there are, have reports whose findings are among those there are.
-/

namespace BlankLines
open Text (Lines)

namespace Rules

theorem findings_analyze (rules : Rules) (t : SourceTree) (lines? : Option Lines)
    (path path' : Path) :
    (rules.analyze t lines? path).map Diagnostic.finding =
      (rules.analyze t lines? path').map Diagnostic.finding := by
  have hdeclarations : (rules.declarationPart t lines? path).map Diagnostic.finding =
      (rules.declarationPart t lines? path').map Diagnostic.finding := by
    unfold declarationPart
    split
    · cases lines? with
      | none => rfl
      | some lines =>
          simp only [Option.elim, List.map_map]
          rfl
    · rfl
  have hstatements : (rules.statementPart t path).map Diagnostic.finding =
      (rules.statementPart t path').map Diagnostic.finding := by
    unfold statementPart
    split
    · simp only [List.map_filterMap, pairDiagnostic?, Option.map_map]
      rfl
    · rfl
  rw [analyze_eq_append, analyze_eq_append, List.map_append, List.map_append, hdeclarations,
    hstatements]

/-- What the rules find in the tree in a file, if there is one. -/
def findings? (rules : Rules) (disk : Disk Id) (path : Path) :
    Option (List (Position × Violation)) :=
  (Id.run (rules.reportFile disk path)).toOption.map FileReport.findings

variable {rules : Rules} {disk : Disk Id} {fs : FileSystem} {p q : Path}

theorem findings?_eq_some_iff {found : List (Position × Violation)} :
    rules.findings? disk p = some found ↔
      ∃ r, rules.reportFile disk p = .ok r ∧ r.findings = found := by
  simp only [findings?, Id.run]
  cases rules.reportFile disk p with
  | error e => simp [Except.toOption]
  | ok r => exact ⟨fun h => ⟨r, rfl, Option.some.inj h⟩, by rintro ⟨_, ⟨⟩, rfl⟩; rfl⟩

/-- What is found in a tree follows from its text and that of its source. -/
theorem findings?_eq (rules : Rules) (disk : Disk Id) (p : Path) :
    rules.findings? disk p =
      (disk.readText p).toOption.bind fun text => (SourceTree.ofText text).toOption.map fun t =>
        (rules.analyze t (Lines.load? disk (t.sourcePath? p)) ⟨""⟩).map Diagnostic.finding := by
  simp only [findings?, Id.run, reportFile_eq, SourceTree.load_eq]
  cases disk.readText p with
  | error f => rfl
  | ok text =>
      cases htree : SourceTree.ofText text with
      | error c => simp [Except.mapError, Except.bind, htree, Except.toOption]
      | ok t =>
          simp only [Except.mapError, Except.bind, htree, Except.toOption, Option.map_some,
            Option.bind_some]
          exact congrArg some (findings_analyze ..)

/-- The source that a tree names is read alike from each spelling of the tree. -/
theorem load?_sourcePath?_eq_of_same (h : p.Same q) (hp : p.IsSolid) (hq : q.IsSolid)
    (t : SourceTree) :
    Lines.load? fs.disk (t.sourcePath? p) = Lines.load? fs.disk (t.sourcePath? q) := by
  rw [Lines.load?_eq, Lines.load?_eq, SourceTree.sourcePath?, SourceTree.sourcePath?]
  cases t.source with
  | none => rfl
  | some source =>
      simp only [Option.map_some, Option.bind_some]
      split
      · rfl
      · have hread : fs.disk.readText ((p.parent?.getD ⟨"."⟩).join source) =
            fs.disk.readText ((q.parent?.getD ⟨"."⟩).join source) :=
          FileSystem.readText_beside_eq h hp hq source
        rw [hread]

/-- **The findings in a tree are the same under each spelling** that ends in a name. -/
theorem findings?_eq_of_same (h : p.Same q) (hp : p.IsSolid) (hq : q.IsSolid) :
    rules.findings? fs.disk p = rules.findings? fs.disk q := by
  have hread : fs.disk.readText p = fs.disk.readText q := FileSystem.readText_eq_of_same h hp hq
  simp only [findings?_eq, hread, load?_sourcePath?_eq_of_same h hp hq]

/-! ### Reports that account for others -/

theorem exists_mem_of_reportFiles {paths : List Path} {rs : List FileReport}
    (h : rules.reportFiles disk paths = .ok rs) {p : Path} (hp : p ∈ paths) :
    ∃ r ∈ rs, rules.reportFile disk p = .ok r := by
  induction paths generalizing rs with
  | nil => cases hp
  | cons q rest ih =>
      rw [reportFiles_cons] at h
      obtain ⟨r, hfile, h⟩ := bind_eq_ok_iff.1 h
      obtain ⟨more, hrest, rfl⟩ := map_eq_ok_iff.1 h
      rcases List.mem_cons.1 hp with rfl | hp
      · exact ⟨r, List.mem_cons_self, hfile⟩
      · obtain ⟨r', hr', hfile'⟩ := ih hrest hp
        exact ⟨r', List.mem_cons_of_mem r hr', hfile'⟩

/-- **Trees that are told apart** by their components, and in each of which is found what one of the
reports at hand says of it: they have reports, and all their findings together are among those at
hand, with each as often at most. -/
theorem exists_reportFiles_of_findings? {paths : List Path}
    (hpaths : paths.Pairwise fun p q => ¬ p.Same q) {rs : List FileReport}
    (h : ∀ p ∈ paths, ∃ r ∈ rs, r.tree.Same p ∧ rules.findings? disk p = some r.findings) :
    ∃ rs', rules.reportFiles disk paths = .ok rs' ∧ (allFindings rs').Subperm (allFindings rs) := by
  induction paths generalizing rs with
  | nil => exact ⟨[], rfl, List.nil_subperm⟩
  | cons p rest ih =>
      rw [List.pairwise_cons] at hpaths
      rw [List.forall_mem_cons] at h
      obtain ⟨⟨r, hr, hsame, hfound⟩, hrest⟩ := h
      obtain ⟨before, after, rfl⟩ := List.append_of_mem hr
      -- what accounts for `p` is not needed for any of the others
      have hothers : ∀ q ∈ rest, ∃ r' ∈ before ++ after, r'.tree.Same q ∧
          rules.findings? disk q = some r'.findings := by
        intro q hq
        obtain ⟨r', hr', hsame', hfound'⟩ := hrest q hq
        have hne : r' ≠ r := by
          rintro rfl
          exact hpaths.1 q hq (hsame.symm.trans hsame')
        refine ⟨r', ?_, hsame', hfound'⟩
        simpa [hne] using hr'
      obtain ⟨rs', hreports, hsub⟩ := ih hpaths.2 hothers
      obtain ⟨r', hfile, hfindings⟩ := findings?_eq_some_iff.1 hfound
      refine ⟨r' :: rs', ?_, ?_⟩
      · rw [reportFiles_cons, hfile, hreports]
        rfl
      · have hperm : (allFindings (before ++ r :: after)).Perm
            (r.findings ++ allFindings (before ++ after)) :=
          List.perm_middle.flatMap_right _
        rw [hperm.subperm_left, ← hfindings]
        exact (List.subperm_append_left _).2 hsub

end Rules

end BlankLines
