import Mathlib.Control.Monad.Basic
import BlankLines.Check.Files
import BlankLines.Files.Memory
import BlankLines.Proofs.Check.Analysis
import BlankLines.Proofs.Results

/-!
# Proofs — Check — the report on a file

A report is made from two files.  That of the tree has to be there and to hold a tree; that of the
source text is looked for where the tree says, and may as well be missing.

* `Rules.reportFile_eq`, `Rules.reportFiles_cons`: a report follows from its tree, and reports from
  each other.
* `FileReport.Describes`: what a report says about a tree, and about the source that it names.
* `Rules.reportFile_consistent`: there is a report exactly if there is a tree, and it describes it.
-/

namespace BlankLines
open Text (Lines)

variable {disk : Disk Id}

/-! ### One report after the other -/

namespace Rules

theorem reportFile_eq (rules : Rules) (p : Path) :
    rules.reportFile disk p =
      (SourceTree.load disk p).bind fun t =>
        .ok (rules.report t (Lines.load? disk (t.sourcePath? p)) p) := by
  simp only [reportFile, bind, pure]
  cases SourceTree.load disk p <;> rfl

theorem reportFiles_cons (rules : Rules) (p : Path) (rest : List Path) :
    rules.reportFiles disk (p :: rest) =
      (rules.reportFile disk p).bind fun r =>
        (rules.reportFiles disk rest).map fun rs => r :: rs := by
  simp only [reportFiles, bind, pure]
  cases rules.reportFile disk p with
  | error e => rfl
  | ok r => cases rules.reportFiles disk rest <;> rfl

end Rules

/-! ### The tree and its source -/

namespace SourceTree

variable {path : Path}

theorem load_eq (disk : Disk Id) (path : Path) :
    SourceTree.load disk path =
      (Except.mapError (.unreadableFile path) (disk.readText path)).bind fun text =>
        (SourceTree.ofText text).mapError (.badTree path) := by
  simp only [SourceTree.load, bind, pure]
  cases disk.readText path <;> rfl

theorem load_congr {disk' : Disk Id} (h : disk'.readText path = disk.readText path) :
    SourceTree.load disk' path = SourceTree.load disk path := by
  rw [load_eq, load_eq, h]

/-- A tree cannot be loaded if its file cannot be read, or if what is read is no tree. -/
theorem load_eq_error_iff {e : Error} :
    SourceTree.load disk path = .error e ↔
      (∃ f, disk.readText path = .error f ∧ e = .unreadableFile path f) ∨
        ∃ text c, disk.readText path = .ok text ∧ SourceTree.ofText text = .error c ∧
          e = .badTree path c := by
  rw [load_eq]
  constructor
  · intro h
    rcases bind_eq_error_iff.1 h with h | ⟨text, hread, h⟩
    · obtain ⟨f, hread, rfl⟩ := mapError_eq_error_iff.1 h
      exact .inl ⟨f, hread, rfl⟩
    · obtain ⟨c, htree, rfl⟩ := mapError_eq_error_iff.1 h
      exact .inr ⟨text, c, mapError_eq_ok_iff.1 hread, htree, rfl⟩
  · rintro (⟨f, hread, rfl⟩ | ⟨text, c, hread, htree, rfl⟩)
    · exact bind_eq_error_iff.2 (.inl (mapError_eq_error_iff.2 ⟨f, hread, rfl⟩))
    · exact bind_eq_error_iff.2 (.inr ⟨text, mapError_eq_ok_iff.2 hread,
        mapError_eq_error_iff.2 ⟨c, htree, rfl⟩⟩)

theorem load_eq_ok_iff {t : SourceTree} :
    SourceTree.load disk path = .ok t ↔
      ∃ text, disk.readText path = .ok text ∧ SourceTree.ofText text = .ok t := by
  rw [load_eq]
  constructor
  · intro h
    obtain ⟨text, hread, htree⟩ := bind_eq_ok_iff.1 h
    exact ⟨text, mapError_eq_ok_iff.1 hread, mapError_eq_ok_iff.1 htree⟩
  · rintro ⟨text, hread, htree⟩
    exact bind_eq_ok_iff.2 ⟨text, mapError_eq_ok_iff.2 hread, mapError_eq_ok_iff.2 htree⟩

end SourceTree

theorem Text.Lines.load?_eq (path? : Option Path) :
    Lines.load? disk path? =
      path?.bind fun path => (disk.readText path).toOption.map Lines.ofText := by
  cases path? with
  | none => rfl
  | some path =>
      simp only [Lines.load?, Lines.load, bind, pure, Option.bind_some]
      cases disk.readText path <;> rfl

/-! ### What a report says -/

/-- What a report says about the tree that `path` holds: where the tree is and where its source was
looked for, whether that could be read, and what the rules find. -/
structure FileReport.Describes (r : FileReport) (rules : Rules) (disk : Disk Id) (path : Path)
    (t : SourceTree) : Prop where
  tree : r.tree = path
  source : r.source = t.sourcePath? path
  /-- All that is found is about the path that the report goes by. -/
  file : ∀ d ∈ r.diagnostics, d.file = r.displayPath
  /-- The source is unavailable if none is named or the one that is cannot be read. -/
  unavailable_iff : r.sourceUnavailable = true ↔
    t.source = none ∨
      ∃ source f, t.sourcePath? path = some source ∧ disk.readText source = .error f
  /-- Without the source nothing is said about declarations. -/
  declarations : r.sourceUnavailable = true → ∀ d ∈ r.diagnostics, d.violation ≠ .missingSeparation
  /-- What is said about statements is what the tree says by itself. -/
  statements : r.diagnostics.filter (·.violation = .unnecessaryGap) =
    rules.analyze t none r.displayPath

namespace Rules

variable {path : Path}

theorem isNone_load?_iff {t : SourceTree} :
    (Lines.load? disk (t.sourcePath? path)).isNone = true ↔
      t.source = none ∨
        ∃ source f, t.sourcePath? path = some source ∧ disk.readText source = .error f := by
  rw [Lines.load?_eq]
  cases hsource : t.sourcePath? path with
  | none =>
      have hnone : t.source = none := Option.map_eq_none_iff.1 hsource
      simp [hnone]
  | some source =>
      have hsome : t.source ≠ none := fun hnone => by
        simp [SourceTree.sourcePath?, hnone] at hsource
      rw [Option.bind_some]
      constructor
      · intro h
        cases hread : disk.readText source with
        | error f => exact .inr ⟨source, f, rfl, hread⟩
        | ok text =>
            rw [hread] at h
            cases h
      · rintro (hnone | ⟨named, f, hnamed, hread⟩)
        · exact absurd hnone hsome
        · obtain rfl := Option.some.inj hnamed
          rw [hread]
          rfl

theorem describes_report (rules : Rules) (disk : Disk Id) (path : Path) (t : SourceTree) :
    (rules.report t (Lines.load? disk (t.sourcePath? path)) path).Describes rules disk path t where
  tree := rfl
  source := rfl
  file := fun _ hd => file_of_mem_analyze hd
  unavailable_iff := isNone_load?_iff
  declarations := fun hnone d hd => by
    have hmem : d ∈ rules.statementPart t ((t.sourcePath? path).getD path) := by
      rw [← analyze_eq_statementPart (.inr (Option.isNone_iff_eq_none.1 hnone))]
      exact hd
    simp [violation_of_mem_statementPart hmem]
  statements := by
    rw [analyze_eq_statementPart (.inr rfl)]
    exact filter_unnecessaryGap_analyze ..

/-- Without a tree there is no report, and that is the only reason. -/
theorem reportFile_eq_error_iff {rules : Rules} {e : Error} :
    rules.reportFile disk path = .error e ↔ SourceTree.load disk path = .error e := by
  rw [reportFile_eq]
  exact bind_eq_error_iff.trans (by simp)

theorem reportFile_eq_ok_iff {rules : Rules} {r : FileReport} :
    rules.reportFile disk path = .ok r ↔
      ∃ t, SourceTree.load disk path = .ok t ∧
        rules.report t (Lines.load? disk (t.sourcePath? path)) path = r := by
  rw [reportFile_eq]
  exact bind_eq_ok_iff.trans (by simp)

/-- A report is about the file it was asked for. -/
theorem tree_of_reportFile {rules : Rules} {r : FileReport}
    (h : rules.reportFile disk path = .ok r) : r.tree = path := by
  obtain ⟨t, -, rfl⟩ := reportFile_eq_ok_iff.1 h
  rfl

/-- The reports on a list of files are about these files, in order. -/
theorem map_tree_reportFiles {rules : Rules} {paths : List Path} {rs : List FileReport}
    (h : rules.reportFiles disk paths = .ok rs) : rs.map FileReport.tree = paths := by
  induction paths generalizing rs with
  | nil =>
      cases h
      rfl
  | cons p rest ih =>
      rw [reportFiles_cons] at h
      obtain ⟨r, hfile, h⟩ := bind_eq_ok_iff.1 h
      obtain ⟨more, hrest, rfl⟩ := map_eq_ok_iff.1 h
      rw [List.map_cons, ih hrest, tree_of_reportFile hfile]

/-- Reports are made of trees that can be loaded. -/
theorem exists_tree_of_reportFiles {rules : Rules} {paths : List Path} {rs : List FileReport}
    (h : rules.reportFiles disk paths = .ok rs) :
    ∀ p ∈ paths, ∃ t, SourceTree.load disk p = .ok t := by
  induction paths generalizing rs with
  | nil => simp
  | cons p rest ih =>
      rw [reportFiles_cons] at h
      obtain ⟨r, hfile, h⟩ := bind_eq_ok_iff.1 h
      obtain ⟨more, hrest, -⟩ := map_eq_ok_iff.1 h
      rw [List.forall_mem_cons]
      obtain ⟨t, ht, -⟩ := reportFile_eq_ok_iff.1 hfile
      exact ⟨⟨t, ht⟩, ih hrest⟩

/-- There are no reports only where one of the trees cannot be loaded. -/
theorem exists_load_error_of_reportFiles {rules : Rules} {paths : List Path} {e : Error}
    (h : rules.reportFiles disk paths = .error e) :
    ∃ p ∈ paths, SourceTree.load disk p = .error e := by
  induction paths with
  | nil => cases h
  | cons p rest ih =>
      rw [reportFiles_cons] at h
      rcases bind_eq_error_iff.1 h with hfile | ⟨r, -, h⟩
      · exact ⟨p, List.mem_cons_self, reportFile_eq_error_iff.1 hfile⟩
      · obtain ⟨bad, hmem, hload⟩ := ih (map_eq_error_iff.1 h)
        exact ⟨bad, List.mem_cons_of_mem _ hmem, hload⟩

/-- **A report is about its tree.**
* There is no report exactly if the file of the tree cannot be read or holds no tree; the error says
  which of the two.  The source text has no part in it.
* A report that there is describes the tree that was read.
* Where the file of the tree reads the same, whatever else is different, the source text for one,
  there is a report as well, or there is none and for the same reason. -/
theorem reportFile_consistent (rules : Rules) (disk : Disk Id) (path : Path) :
    (∀ e, rules.reportFile disk path = .error e ↔
      (∃ f, disk.readText path = .error f ∧ e = .unreadableFile path f) ∨
        ∃ text c, disk.readText path = .ok text ∧ SourceTree.ofText text = .error c ∧
          e = .badTree path c) ∧
    (∀ r, rules.reportFile disk path = .ok r →
      ∃ text t, disk.readText path = .ok text ∧ SourceTree.ofText text = .ok t ∧
        r.Describes rules disk path t) ∧
    ∀ disk' : Disk Id, disk'.readText path = disk.readText path →
      ((∃ r, rules.reportFile disk' path = .ok r) ↔ ∃ r, rules.reportFile disk path = .ok r) ∧
        ∀ e, rules.reportFile disk' path = .error e ↔ rules.reportFile disk path = .error e := by
  refine ⟨fun e => reportFile_eq_error_iff.trans SourceTree.load_eq_error_iff, fun r hr => ?_,
    fun disk' hread => ?_⟩
  · obtain ⟨t, ht, rfl⟩ := reportFile_eq_ok_iff.1 hr
    obtain ⟨text, hread, htree⟩ := SourceTree.load_eq_ok_iff.1 ht
    exact ⟨text, t, hread, htree, describes_report rules disk path t⟩
  · have hload : SourceTree.load disk' path = SourceTree.load disk path :=
      SourceTree.load_congr hread
    refine ⟨?_, fun e => by rw [reportFile_eq_error_iff, reportFile_eq_error_iff, hload]⟩
    simp only [reportFile_eq_ok_iff, exists_comm, hload, exists_and_left, exists_eq', and_true]

end Rules

/-- A tree of two declarations that follow each other, and its source text of these bytes. -/
def besideSource (source : ByteArray) : FileSystem where
  root := .directory
    [("a.go", .file source),
     ("a.json", .file ("\x7b\"source\":\"a.go\",\"declarations\":[" ++
        "\x7b\"kind\":\"var\",\"span\":\x7b\"start\":\x7b\"line\":1\x7d," ++
          "\"end\":\x7b\"line\":1\x7d\x7d\x7d," ++
        "\x7b\"kind\":\"type\",\"span\":\x7b\"start\":\x7b\"line\":2\x7d," ++
          "\"end\":\x7b\"line\":2\x7d\x7d\x7d]\x7d").toUTF8)]
  current := ⟨"/"⟩

/-- A source that is there and not text: there is a report as where it can be read, but what is
found there is not in it. -/
theorem Rules.reportFile_consistent_notText :
    (∃ r, Rules.reportFile {} (besideSource "var a\ntype b\n".toUTF8).disk ⟨"a.json"⟩ = .ok r ∧
      r.diagnostics = [.new ⟨"a.go"⟩ ⟨2, 1⟩ .missingSeparation]) ∧
    ∃ r, Rules.reportFile {} (besideSource ⟨#[0xFF]⟩).disk ⟨"a.json"⟩ = .ok r ∧
      r.sourceUnavailable = true ∧ ∀ d ∈ r.diagnostics, d.violation ≠ .missingSeparation := by
  have hfound : @Eq (Except Error FileReport)
      (Rules.reportFile {} (besideSource "var a\ntype b\n".toUTF8).disk ⟨"a.json"⟩)
      (.ok ⟨⟨"a.json"⟩, some ⟨"a.go"⟩, [.new ⟨"a.go"⟩ ⟨2, 1⟩ .missingSeparation], false⟩) := by
    decide +kernel
  have hread : (besideSource ⟨#[0xFF]⟩).readText ⟨"a.json"⟩ =
      (besideSource "var a\ntype b\n".toUTF8).readText ⟨"a.json"⟩ := by
    decide +kernel
  have hsource : (besideSource ⟨#[0xFF]⟩).readText ⟨"a.go"⟩ = .error .notText := by
    decide +kernel
  obtain ⟨-, hdescribes, hsame⟩ :=
    reportFile_consistent {} (besideSource "var a\ntype b\n".toUTF8).disk ⟨"a.json"⟩
  obtain ⟨text, t, htext, htree, h⟩ := hdescribes _ hfound
  obtain ⟨r, hr⟩ := (hsame (besideSource ⟨#[0xFF]⟩).disk hread).1.2 ⟨_, hfound⟩
  obtain ⟨text', t', htext', htree', h'⟩ :=
    (reportFile_consistent {} (besideSource ⟨#[0xFF]⟩).disk ⟨"a.json"⟩).2.1 r hr
  -- both reports are about the tree that both file systems have
  obtain rfl := Except.ok.inj (htext'.symm.trans (hread.trans htext))
  obtain rfl := Except.ok.inj (htree'.symm.trans htree)
  have hunavailable : r.sourceUnavailable = true :=
    h'.unavailable_iff.2 (.inr ⟨⟨"a.go"⟩, .notText, h.source.symm, hsource⟩)
  exact ⟨⟨_, hfound, rfl⟩, r, hr, hunavailable, h'.declarations hunavailable⟩

end BlankLines
