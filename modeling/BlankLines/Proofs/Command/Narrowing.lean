import BlankLines.Proofs.Check.Findings
import BlankLines.Proofs.Command.Verdict
import BlankLines.Proofs.Scan.Excludes

/-!
# Proofs — Command — a check that leaves out more

Patterns that are added to a check can only take trees away from it.  The trees that are left need
not be a part of those there were: of several spellings of one tree the first is kept, and where a
pattern takes that one away another comes in its place.  What is found in a tree does not depend on
its spelling, so the findings that are left are a part of those there were.

* `CheckArgs.excluding`: a check with other patterns.
* `CheckArgs.exists_trees_excluding`, `CheckArgs.exists_finds_excluding`: its trees, and what is
  found in them.
* `CommandLine.run_excluding`: a check with more patterns finds no more, and succeeds where the
  check without them does.
-/

namespace BlankLines

variable {fs : FileSystem} {disk : Disk Id} {texts : List String}

/-- A configuration that can be used still can with more patterns, for the same rules. -/
theorem Config.exists_usable_of_addsPatterns {c : Config} {rules : Rules} {f : Filter}
    (h : c.usable = .ok (rules, f)) (hadds : AddsPatterns c.scanner.exclude texts) :
    ∃ f', usable { c with scanner := { c.scanner with exclude := texts } } = .ok (rules, f') ∧
      f'.Narrows f := by
  obtain ⟨_, hvalid, h⟩ := bind_eq_ok_iff.1 h
  obtain ⟨_, hf, h⟩ := bind_eq_ok_iff.1 h
  cases h
  obtain ⟨f', hf', hnarrows⟩ := Filter.exists_narrows_of_ofConfig hf hadds
  obtain ⟨hversion, -, hextensions, hrules⟩ := validate_eq_ok_iff.1 hvalid
  obtain ⟨excludes, hexcludes, -⟩ := bind_eq_ok_iff.1 hf'
  have hvalid' : validate { c with scanner := { c.scanner with exclude := texts } } = .ok () :=
    validate_eq_ok_iff.2 ⟨hversion, ⟨excludes, hexcludes⟩, hextensions, hrules⟩
  exact ⟨f', bind_eq_ok_iff.2 ⟨(), hvalid', bind_eq_ok_iff.2 ⟨f', hf', rfl⟩⟩, hnarrows⟩

namespace CheckArgs

/-- The same check with other patterns of paths to leave out. -/
def excluding (a : CheckArgs) (texts : List String) : CheckArgs :=
  { a with exclude := texts }

variable {a : CheckArgs} {noConfig : Bool} {rules : Rules}

theorem exists_settings_excluding {f : Filter} (h : a.settings disk noConfig = .ok (rules, f))
    (hadds : AddsPatterns a.exclude texts) :
    ∃ f', (a.excluding texts).settings disk noConfig = .ok (rules, f') ∧ f'.Narrows f := by
  rw [settings_eq] at h
  obtain ⟨c, hc, h⟩ := bind_eq_ok_iff.1 h
  obtain ⟨f', hf', hnarrows⟩ :=
    Config.exists_usable_of_addsPatterns h (hadds.append_left c.scanner.exclude)
  refine ⟨f', ?_, hnarrows⟩
  rw [settings_eq]
  exact bind_eq_ok_iff.2 ⟨c, hc, hf'⟩

/-- Each tree that is left is one of those there were, though perhaps under another spelling, and
the same is found in it. -/
theorem exists_trees_excluding (hw : fs.root.WellNamed) {paths : List Path}
    (h : a.trees fs.disk noConfig = .ok (rules, paths)) (hadds : AddsPatterns a.exclude texts) :
    ∃ paths', (a.excluding texts).trees fs.disk noConfig = .ok (rules, paths') ∧
      (paths'.Pairwise fun p q => ¬ p.Same q) ∧
      ∀ p' ∈ paths', ∃ p ∈ paths, p.Same p' ∧
        rules.findings? fs.disk p' = rules.findings? fs.disk p := by
  rw [trees_eq] at h
  obtain ⟨⟨rules', f⟩, hsettings, h⟩ := bind_eq_ok_iff.1 h
  obtain ⟨_, hscan, h⟩ := map_eq_ok_iff.1 h
  cases h
  obtain ⟨f', hsettings', hnarrows⟩ := exists_settings_excluding hsettings hadds
  obtain ⟨paths', hscan', hpairwise, hmatched⟩ :=
    Filter.exists_scanAll_of_narrows hnarrows hw hscan
  refine ⟨paths', ?_, hpairwise, fun p' hp' => ?_⟩
  · rw [trees_eq]
    exact bind_eq_ok_iff.2 ⟨_, hsettings', map_eq_ok_iff.2 ⟨paths', hscan', rfl⟩⟩
  · obtain ⟨p, hp, hsame, hsolid, hsolid'⟩ := hmatched p' hp'
    exact ⟨p, hp, hsame, (Rules.findings?_eq_of_same hsame hsolid hsolid').symm⟩

/-- **What is left of the findings** is a part of them, each as often as before at most. -/
theorem exists_finds_excluding (hw : fs.root.WellNamed) {reports : List FileReport}
    (h : a.Finds noConfig fs reports) (hadds : AddsPatterns a.exclude texts) :
    ∃ reports', (a.excluding texts).Finds noConfig fs reports' ∧
      (allFindings reports').Subperm (allFindings reports) := by
  obtain ⟨rules, paths, htrees, hreports⟩ := h
  obtain ⟨paths', htrees', hpairwise, hmatched⟩ := exists_trees_excluding hw htrees hadds
  have hreported : ∀ p' ∈ paths', ∃ r ∈ reports, r.tree.Same p' ∧
      rules.findings? fs.disk p' = some r.findings := by
    intro p' hp'
    obtain ⟨p, hp, hsame, hfound⟩ := hmatched p' hp'
    obtain ⟨r, hr, hfile⟩ := Rules.exists_mem_of_reportFiles hreports hp
    refine ⟨r, hr, by rwa [Rules.tree_of_reportFile hfile], ?_⟩
    rw [hfound]
    exact Rules.findings?_eq_some_iff.2 ⟨r, hfile, rfl⟩
  obtain ⟨reports', hreports', hsub⟩ :=
    Rules.exists_reportFiles_of_findings? hpairwise hreported
  exact ⟨reports', ⟨rules, paths', htrees', hreports'⟩, hsub⟩

/-- A part of the findings makes no exit code worse. -/
theorem exitCode_eq_success_of_subperm {reports reports' : List FileReport}
    (h : (allFindings reports').Subperm (allFindings reports))
    (hexit : a.exitCode reports = exitSuccess) : a.exitCode reports' = exitSuccess := by
  refine (a.exitCode_eq_success_or reports').resolve_right fun hviolations => ?_
  obtain ⟨hwarn, hfound⟩ := exitCode_eq_violations_iff.1 hviolations
  rw [← allFindings_ne_nil_iff] at hfound
  have hfound' : allFindings reports ≠ [] := fun hnil => hfound (List.subperm_nil.1 (hnil ▸ h))
  rw [exitCode_eq_violations_iff.2 ⟨hwarn, allFindings_ne_nil_iff.1 hfound'⟩] at hexit
  cases hexit

end CheckArgs

namespace CommandLine

/-- A command line with another check in its place. -/
def checking (cl : CommandLine) (a : CheckArgs) : CommandLine :=
  { cl with command := .check a }

variable {cl : CommandLine} {a : CheckArgs} {w : Surroundings}

theorem exists_finds_of_ne (hcl : cl.command = .check a) (hw : fs.root.WellNamed)
    (hadds : AddsPatterns a.exclude texts)
    (hexit : (cl.runIn w fs).exitCode ≠ exitError) :
    ∃ reports reports', a.Finds cl.noConfig fs reports ∧
      (a.excluding texts).Finds cl.noConfig fs reports' ∧
      (allFindings reports').Subperm (allFindings reports) ∧
      (cl.runIn w fs).exitCode = a.exitCode reports ∧
      ((cl.checking (a.excluding texts)).runIn w fs).exitCode = a.exitCode reports' := by
  obtain ⟨reports, hfinds, hshows⟩ := shows_of_ne hcl hexit
  obtain ⟨reports', hfinds', hsub⟩ := CheckArgs.exists_finds_excluding hw hfinds hadds
  -- the report goes where the other one could be saved
  have hne : ((cl.checking (a.excluding texts)).runIn w fs).exitCode ≠ exitError := by
    refine ne_of_finds rfl hfinds' fun s hs => ?_
    obtain ⟨path, hout, rfl⟩ := Option.map_eq_some_iff.1 hs
    obtain ⟨-, hrun⟩ := hshows.saved path hout
    exact Saving.exists_of_run_perform hrun _
  obtain ⟨reports'', hfinds'', hshows'⟩ := shows_of_ne rfl hne
  rw [hfinds'.unique hfinds''] at hshows'
  exact ⟨reports, reports', hfinds, hfinds', hsub, hshows.exitCode, hshows'.exitCode⟩

end CommandLine

/-- **A check with more patterns** of paths to leave out, in a file system with sound names:
* Each tree that it looks for, the check without them looks for under the same components, and the
  rules find the same there, if it is a tree.
* If the check without them is not an error, neither is it; and the totals of what it finds, of all
  violations and of each of them, are no greater.
* If the check without them ends well, so does it. -/
theorem CommandLine.run_excluding {cl : CommandLine} {a : CheckArgs} (hcl : cl.command = .check a)
    (w : Surroundings) (hw : fs.root.WellNamed) (hadds : AddsPatterns a.exclude texts) :
    (∀ rules paths, a.trees fs.disk cl.noConfig = .ok (rules, paths) →
      ∃ paths', (a.excluding texts).trees fs.disk cl.noConfig = .ok (rules, paths') ∧
        ∀ p' ∈ paths', ∃ p ∈ paths, p.Same p' ∧
          rules.findings? fs.disk p' = rules.findings? fs.disk p) ∧
    ((cl.runIn w fs).exitCode ≠ exitError →
      ((cl.checking (a.excluding texts)).runIn w fs).exitCode ≠ exitError ∧
      ∃ reports reports', a.Finds cl.noConfig fs reports ∧
        (a.excluding texts).Finds cl.noConfig fs reports' ∧
        (Summary.ofReports reports').violations ≤ (Summary.ofReports reports).violations ∧
        (Summary.ofReports reports').missingSeparations ≤
          (Summary.ofReports reports).missingSeparations ∧
        (Summary.ofReports reports').unnecessaryGaps ≤
          (Summary.ofReports reports).unnecessaryGaps) ∧
    ((cl.runIn w fs).exitCode = exitSuccess →
      ((cl.checking (a.excluding texts)).runIn w fs).exitCode = exitSuccess) := by
  refine ⟨fun rules paths h => ?_, fun hexit => ?_, fun hexit => ?_⟩
  · obtain ⟨paths', htrees, -, hmatched⟩ := CheckArgs.exists_trees_excluding hw h hadds
    exact ⟨paths', htrees, hmatched⟩
  · obtain ⟨reports, reports', hfinds, hfinds', hsub, -, hexit'⟩ :=
      exists_finds_of_ne hcl hw hadds hexit
    refine ⟨?_, reports, reports', hfinds, hfinds', ?_, ?_, ?_⟩
    · rw [hexit']
      exact a.exitCode_ne reports'
    · rw [Summary.violations_ofReports, Summary.violations_ofReports]
      exact hsub.length_le
    · rw [Summary.missingSeparations_ofReports, Summary.missingSeparations_ofReports]
      exact hsub.countP_le _
    · rw [Summary.unnecessaryGaps_ofReports, Summary.unnecessaryGaps_ofReports]
      exact hsub.countP_le _
  · have hne : (cl.runIn w fs).exitCode ≠ exitError := by
      rw [hexit]
      decide
    obtain ⟨reports, reports', -, -, hsub, hexit₀, hexit'⟩ :=
      exists_finds_of_ne hcl hw hadds hne
    rw [hexit']
    exact CheckArgs.exitCode_eq_success_of_subperm hsub (hexit₀.symm.trans hexit)

/-! ### A tree with two spellings -/

/-- A check of one tree under two spellings. -/
def twoSpellings : CheckArgs where
  paths := [⟨"./a.json"⟩, ⟨".//a.json"⟩]

/-- The first spelling is left out.  The tree comes under the second, which was left out before, and
the same is found in it. -/
theorem CommandLine.run_excluding_spelling :
    @Eq (Except Error (Rules × List Path))
        (twoSpellings.trees crowdedFiles.disk true)
        (.ok ({}, [⟨"./a.json"⟩])) ∧
      @Eq (Except Error (Rules × List Path))
        ((twoSpellings.excluding ["./a.json"]).trees crowdedFiles.disk true)
        (.ok ({}, [⟨".//a.json"⟩])) ∧
      Path.Same ⟨"./a.json"⟩ ⟨".//a.json"⟩ ∧
      Rules.findings? {} crowdedFiles.disk ⟨".//a.json"⟩ =
        Rules.findings? {} crowdedFiles.disk ⟨"./a.json"⟩ ∧
      (((checkOnly [⟨"./a.json"⟩, ⟨".//a.json"⟩] none).checking
        (twoSpellings.excluding ["./a.json"])).run crowdedFiles).exitCode ≠ exitError := by
  have hw : crowdedFiles.root.WellNamed := by
    simp only [crowdedFiles, besideSource, Entry.WellNamed, Entry.AllWellNamed, Entry.NamedWell,
      and_true]
    decide +kernel
  have hpattern : IsPattern "./a.json" := by
    have hok : (compileExcludes ["./a.json"]).toOption.isSome = true := by decide +kernel
    cases h : compileExcludes ["./a.json"] with
    | error e => simp [h, Except.toOption] at hok
    | ok ps => exact ⟨ps, h⟩
  have htrees : @Eq (Except Error (Rules × List Path))
      (twoSpellings.trees crowdedFiles.disk true)
      (.ok ({}, [⟨"./a.json"⟩])) := by
    decide +kernel
  have htrees' : @Eq (Except Error (Rules × List Path))
      ((twoSpellings.excluding ["./a.json"]).trees crowdedFiles.disk true)
      (.ok ({}, [⟨".//a.json"⟩])) := by
    decide +kernel
  have hcommand : (checkOnly [⟨"./a.json"⟩, ⟨".//a.json"⟩] none).command =
      .check twoSpellings := rfl
  have hadds : AddsPatterns twoSpellings.exclude ["./a.json"] :=
    ⟨List.nil_subset _, by simp [hpattern]⟩
  obtain ⟨hmatched, hexit, -⟩ := run_excluding hcommand {} hw hadds
  obtain ⟨paths', hpaths', hfound⟩ := hmatched _ _ htrees
  obtain rfl : [⟨".//a.json"⟩] = paths' := by simpa using htrees'.symm.trans hpaths'
  obtain ⟨hsame, hfindings⟩ : Path.Same ⟨"./a.json"⟩ ⟨".//a.json"⟩ ∧ _ := by simpa using hfound
  exact ⟨htrees, htrees', hsame, hfindings, (hexit (by decide +kernel)).1⟩

end BlankLines
