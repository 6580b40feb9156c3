import BlankLines.Proofs.Command.Steps
import BlankLines.Proofs.Files.Failing

/-!
# Proofs — Command — a check that fails

A check looks before it writes, and writes before it prints.  So one that fails has printed nothing,
and has made directories at most, and those only where the report itself could not be written.

* `CheckArgs.Fails`: the ways to fail with nothing written.
* `CheckArgs.FailsToSave`: the one that is left.
* `CommandLine.run_failed`: what a check that fails leaves behind.
-/

namespace BlankLines

variable {fs : FileSystem}

namespace CheckArgs

/-! ### Ways to fail -/

/-- A check fails for this reason, before there is a report. -/
inductive Fails (a : CheckArgs) (noConfig : Bool) (fs : FileSystem) : Error → Prop where
  /-- The configuration cannot be read, or what is read is none. -/
  | config {e : Error} (h : Config.choose fs.disk noConfig a.config = .error e) :
      Fails a noConfig fs e
  /-- With what the command line sets the configuration is not valid: a pattern cannot be read, no
  extension is named or no rule is on. -/
  | setting {c : Config} {e : Error} (hc : Config.choose fs.disk noConfig a.config = .ok c)
      (h : (a.override c).validate = .error e) : Fails a noConfig fs e
  /-- A root is missing. -/
  | root {rules : Rules} {f : Filter} {root : Path}
      (hs : a.settings fs.disk noConfig = .ok (rules, f)) (hroot : root ∈ a.paths)
      (h : fs.isPresent root = false) : Fails a noConfig fs (.missingRoot root)
  /-- One of the trees cannot be read, or what is read is none. -/
  | tree {rules : Rules} {paths : List Path} {p : Path} {e : Error}
      (ht : a.trees fs.disk noConfig = .ok (rules, paths)) (hp : p ∈ paths)
      (h : SourceTree.load fs.disk p = .error e) : Fails a noConfig fs e

/-- A check has a report, which goes to a file. -/
def ToSave (a : CheckArgs) (cl : CommandLine) (w : Surroundings) (fs : FileSystem) (s : Saving) :
    Prop :=
  ∃ product, (Id.run (a.plan fs.disk cl (cl.color.colors w.terminal))).result = .ok product ∧
    product.saving = some s

/-- A check has a report, which cannot be saved. -/
def FailsToSave (a : CheckArgs) (cl : CommandLine) (w : Surroundings) (fs : FileSystem) : Prop :=
  ∃ s f, a.ToSave cl w fs s ∧ ((s.perform w.break?).run fs).1 = .error f

variable {a : CheckArgs} {noConfig : Bool} {e : Error}

/-! ### From a step to the plan and back -/

theorem fails_of_settings (h : a.settings fs.disk noConfig = .error e) :
    a.Fails noConfig fs e := by
  rw [settings_eq] at h
  rcases bind_eq_error_iff.1 h with hc | ⟨c, hc, h⟩
  · exact .config hc
  · exact .setting hc (Config.usable_eq_error_iff.1 h)

theorem fails_of_trees (h : a.trees fs.disk noConfig = .error e) : a.Fails noConfig fs e := by
  rw [trees_eq] at h
  rcases bind_eq_error_iff.1 h with hs | ⟨⟨rules, f⟩, hs, h⟩
  · exact fails_of_settings hs
  · have hscan := map_eq_error_iff.1 h
    rw [scanAll_eq_map] at hscan
    obtain ⟨root, hroot, hmissing, rfl⟩ := exists_missing_of_scanEach (map_eq_error_iff.1 hscan)
    exact .root hs hroot hmissing

variable {cl : CommandLine} {colors : Bool}

/-- An error that is planned has one of the reasons. -/
theorem fails_of_plan (h : (Id.run (a.plan fs.disk cl colors)).result = .error e) :
    a.Fails cl.noConfig fs e := by
  rw [result_plan_eq] at h
  rcases bind_eq_error_iff.1 h with ht | ⟨⟨rules, paths⟩, ht, h⟩
  · exact fails_of_trees ht
  · obtain ⟨p, hp, hload⟩ := Rules.exists_load_error_of_reportFiles (map_eq_error_iff.1 h)
    exact .tree ht hp hload

theorem trees_of_settings_error (h : a.settings fs.disk noConfig = .error e) :
    a.trees fs.disk noConfig = .error e := by
  rw [trees_eq]
  exact bind_eq_error_iff.2 (.inl h)

theorem plan_of_trees_error (h : a.trees fs.disk cl.noConfig = .error e) :
    (Id.run (a.plan fs.disk cl colors)).result = .error e := by
  rw [result_plan_eq]
  exact bind_eq_error_iff.2 (.inl h)

theorem trees_ne_ok {root : Path} (hroot : root ∈ a.paths) (h : fs.isPresent root = false)
    (t : Rules × List Path) : a.trees fs.disk noConfig ≠ .ok t := by
  intro ht
  rw [trees_eq] at ht
  obtain ⟨⟨rules, f⟩, -, ht⟩ := bind_eq_ok_iff.1 ht
  obtain ⟨paths, hscan, -⟩ := map_eq_ok_iff.1 ht
  rw [scanAll_eq_map] at hscan
  obtain ⟨found, heach, -⟩ := map_eq_ok_iff.1 hscan
  have hpresent := isPresent_of_scanEach heach root hroot
  cases h.symm.trans hpresent

/-- Each of the reasons makes an error, though another may come first. -/
theorem Fails.exists_error_plan (h : a.Fails cl.noConfig fs e) (colors : Bool) :
    ∃ e', (Id.run (a.plan fs.disk cl colors)).result = .error e' := by
  cases h with
  | config h =>
      have hsettings : a.settings fs.disk cl.noConfig = .error e := by
        rw [settings_eq]
        exact bind_eq_error_iff.2 (.inl h)
      exact ⟨e, plan_of_trees_error (trees_of_settings_error hsettings)⟩
  | setting hc h =>
      have hsettings : a.settings fs.disk cl.noConfig = .error e := by
        rw [settings_eq]
        exact bind_eq_error_iff.2 (.inr ⟨_, hc, Config.usable_eq_error_iff.2 h⟩)
      exact ⟨e, plan_of_trees_error (trees_of_settings_error hsettings)⟩
  | root _ hroot h =>
      cases ht : a.trees fs.disk cl.noConfig with
      | error e' => exact ⟨e', plan_of_trees_error ht⟩
      | ok t => exact absurd ht (trees_ne_ok hroot h t)
  | @tree rules paths p _ ht hp h =>
      cases hr : rules.reportFiles fs.disk paths with
      | error e' =>
          refine ⟨e', ?_⟩
          rw [result_plan_eq]
          exact bind_eq_error_iff.2 (.inr ⟨(rules, paths), ht, map_eq_error_iff.2 hr⟩)
      | ok reports =>
          obtain ⟨t, hload⟩ := Rules.exists_tree_of_reportFiles hr p hp
          cases h.symm.trans hload

theorem not_fails_of_plan {product : Product}
    (h : (Id.run (a.plan fs.disk cl colors)).result = .ok product) :
    ¬ a.Fails cl.noConfig fs e := by
  intro hf
  obtain ⟨e', he⟩ := hf.exists_error_plan colors
  cases h.symm.trans he

theorem exitCode_ne (a : CheckArgs) (reports : List FileReport) :
    a.exitCode reports ≠ exitError := by
  unfold exitCode
  split <;> decide

/-- A report that is made does not come with the exit code of an error. -/
theorem exitCode_product_ne {product : Product}
    (h : (Id.run (a.plan fs.disk cl colors)).result = .ok product) :
    product.exitCode ≠ exitError := by
  rw [result_plan_eq] at h
  obtain ⟨_, -, h⟩ := bind_eq_ok_iff.1 h
  obtain ⟨reports, -, rfl⟩ := map_eq_ok_iff.1 h
  exact exitCode_ne a reports

/-- A check whose report was saved, or was not to be, has not failed in any way. -/
theorem not_failed {w : Surroundings} {product : Product}
    (h : (Id.run (a.plan fs.disk cl (cl.color.colors w.terminal))).result = .ok product)
    (hsaved : ∀ s, product.saving = some s → ((s.perform w.break?).run fs).1 = .ok ()) :
    product.exitCode ≠ exitError ∧ (∀ e, ¬ a.Fails cl.noConfig fs e) ∧
      ¬ a.FailsToSave cl w fs := by
  refine ⟨exitCode_product_ne h, fun e => not_fails_of_plan h, ?_⟩
  rintro ⟨s, f, ⟨product', h', hs⟩, hf⟩
  obtain rfl := Except.ok.inj (h.symm.trans h')
  cases (hsaved s hs).symm.trans hf

end CheckArgs

/-! ### What is left behind -/

/-- **A check that fails.**
* A check ends with the exit code of an error exactly if it fails on the way or cannot save its
  report.
* If it does, it prints nothing and makes no file and changes none, but for one case: where the
  writing of the report broke off, the file of the report holds a beginning of it.
* If it fails on the way, and it is enough that one tree among many is none, nothing at all is
  changed: no directory is made either. -/
theorem CommandLine.run_failed {cl : CommandLine} {a : CheckArgs} (hcl : cl.command = .check a)
    (w : Surroundings) (fs : FileSystem) :
    ((cl.runIn w fs).exitCode = exitError ↔
      (∃ e, a.Fails cl.noConfig fs e) ∨ a.FailsToSave cl w fs) ∧
    ((cl.runIn w fs).exitCode = exitError →
      (cl.runIn w fs).stdout = "" ∧
        (fs.AddsDirectories none (cl.runIn w fs).files ∨
          ∃ b o s, w.break? = some b ∧ a.ToSave cl w fs s ∧ a.output = some s.path ∧
            s.BrokenOff b o fs (cl.runIn w fs).files)) ∧
    ∀ e, a.Fails cl.noConfig fs e →
      (cl.runIn w fs).stdout = "" ∧ (cl.runIn w fs).files = fs := by
  rw [runIn_eq hcl w fs]
  have hran := Plan.ran_run (Id.run (a.plan fs.disk cl (cl.color.colors w.terminal))) w fs
  generalize Plan.run _ w fs = outcome at hran ⊢
  cases hran with
  | @failed e h =>
      exact ⟨⟨fun _ => .inl ⟨e, CheckArgs.fails_of_plan h⟩, fun _ => rfl⟩,
        fun _ => ⟨rfl, .inl (.refl none fs)⟩, fun _ _ => ⟨rfl, rfl⟩⟩
  | @unsaved product s f fs' h hs hrun =>
      have hpath : a.output = some s.path := by rw [← CheckArgs.path_of_saving h, hs]; rfl
      have hleft : fs.AddsDirectories none fs' ∨
          ∃ b o s, w.break? = some b ∧ a.ToSave cl w fs s ∧ a.output = some s.path ∧
            s.BrokenOff b o fs fs' := by
        rcases Saving.of_error hrun with hmade | ⟨b, o, hbreak, -, hbroken⟩
        · exact .inl hmade
        · exact .inr ⟨b, o, s, hbreak, ⟨product, h, hs⟩, hpath, hbroken⟩
      exact ⟨⟨fun _ => .inr ⟨s, f, ⟨product, h, hs⟩, by rw [hrun]⟩, fun _ => rfl⟩,
        fun _ => ⟨rfl, hleft⟩, fun _ hf => absurd hf (CheckArgs.not_fails_of_plan h)⟩
  | printed h hs =>
      obtain ⟨hexit, hfails, hsave⟩ := CheckArgs.not_failed h (by simp [hs])
      exact ⟨iff_of_false hexit (by simp [hfails, hsave]), fun h => absurd h hexit,
        fun e hf => absurd hf (hfails e)⟩
  | saved h hs hrun =>
      obtain ⟨hexit, hfails, hsave⟩ := CheckArgs.not_failed h (by simp [hs, hrun])
      exact ⟨iff_of_false hexit (by simp [hfails, hsave]), fun h => absurd h hexit,
        fun e hf => absurd hf (hfails e)⟩

/-! ### A tree that is none, and a report that cannot be saved -/

/-- Trees beside each other, the second of which is none, and a report from before. -/
def oneBadTree : FileSystem where
  root := .directory
    [("a.json", .file "\x7b\"declarations\":[]\x7d".toUTF8), ("b.json", .file "[".toUTF8),
     ("c.json", .file "\x7b\"declarations\":[]\x7d".toUTF8), ("report.txt", .file "old".toUTF8)]
  current := ⟨"/"⟩

/-- A check of some roots without a configuration. -/
def checkOnly (roots : List Path) (output : Option Path) : CommandLine where
  noConfig := true
  command := .check { paths := roots, output }

/-- A file system that is full when so many bytes are written. -/
def fullAfter (taken : Nat) : Surroundings where
  break? := some ⟨taken, .other "No space left on device (os error 28)"⟩

/-- One tree among others is none: there is no report.  The others have one.  It cannot be saved
where the path asks for a directory: one above it was made.  And where its writing breaks off, two
bytes of it are left. -/
theorem CommandLine.run_failed_oneBadTree :
    (((checkOnly [⟨"a.json"⟩, ⟨"b.json"⟩, ⟨"c.json"⟩] none).run oneBadTree).exitCode = exitError ∧
      ((checkOnly [⟨"a.json"⟩, ⟨"b.json"⟩, ⟨"c.json"⟩] none).run oneBadTree).stdout = "" ∧
      ((checkOnly [⟨"a.json"⟩, ⟨"b.json"⟩, ⟨"c.json"⟩] none).run oneBadTree).files = oneBadTree) ∧
    (((checkOnly [⟨"a.json"⟩, ⟨"c.json"⟩] (some ⟨"new/report/"⟩)).run oneBadTree).exitCode =
        exitError ∧
      oneBadTree.isPresent ⟨"new"⟩ = false ∧
      ((checkOnly [⟨"a.json"⟩, ⟨"c.json"⟩] (some ⟨"new/report/"⟩)).run oneBadTree).files.isPresent
        ⟨"new"⟩ = true ∧
      oneBadTree.AddsDirectories none
        ((checkOnly [⟨"a.json"⟩, ⟨"c.json"⟩] (some ⟨"new/report/"⟩)).run oneBadTree).files) ∧
    ((checkOnly [⟨"a.json"⟩] (some ⟨"report.txt"⟩)).runIn (fullAfter 2) oneBadTree).exitCode =
        exitError ∧
      ((checkOnly [⟨"a.json"⟩] (some ⟨"report.txt"⟩)).runIn (fullAfter 2) oneBadTree).files.readText
        ⟨"report.txt"⟩ = .ok "No" ∧
      ∃ o, oneBadTree.AddsDirectories (some o)
        ((checkOnly [⟨"a.json"⟩] (some ⟨"report.txt"⟩)).runIn (fullAfter 2) oneBadTree).files := by
  have htrees : @Eq (Except Error (Rules × List Path))
      (CheckArgs.trees { paths := [⟨"a.json"⟩, ⟨"b.json"⟩, ⟨"c.json"⟩] } oneBadTree.disk true)
      (.ok ({}, [⟨"a.json"⟩, ⟨"b.json"⟩, ⟨"c.json"⟩])) := by
    decide +kernel
  have hload : @Eq (Except Error SourceTree) (SourceTree.load oneBadTree.disk ⟨"b.json"⟩)
      (.error (.badTree ⟨"b.json"⟩ ⟨.endOfList, ⟨1, 1⟩⟩)) := by
    decide +kernel
  have hfails := CheckArgs.Fails.tree htrees (by simp) hload
  have hexit : ((checkOnly [⟨"a.json"⟩, ⟨"c.json"⟩] (some ⟨"new/report/"⟩)).run
      oneBadTree).exitCode = exitError := by
    decide +kernel
  have hexit' : ((checkOnly [⟨"a.json"⟩] (some ⟨"report.txt"⟩)).runIn (fullAfter 2)
      oneBadTree).exitCode = exitError := by
    decide +kernel
  have hbad : (checkOnly [⟨"a.json"⟩, ⟨"b.json"⟩, ⟨"c.json"⟩] none).command =
      .check { paths := [⟨"a.json"⟩, ⟨"b.json"⟩, ⟨"c.json"⟩] } := rfl
  have hgood : (checkOnly [⟨"a.json"⟩, ⟨"c.json"⟩] (some ⟨"new/report/"⟩)).command =
      .check { paths := [⟨"a.json"⟩, ⟨"c.json"⟩], output := some ⟨"new/report/"⟩ } := rfl
  have hfull : (checkOnly [⟨"a.json"⟩] (some ⟨"report.txt"⟩)).command =
      .check { paths := [⟨"a.json"⟩], output := some ⟨"report.txt"⟩ } := rfl
  obtain ⟨hfailed, -, hnothing⟩ := run_failed hbad {} oneBadTree
  obtain ⟨-, hsaving, -⟩ := run_failed hgood {} oneBadTree
  obtain ⟨-, hwriting, -⟩ := run_failed hfull (fullAfter 2) oneBadTree
  refine ⟨⟨hfailed.2 (.inl ⟨_, hfails⟩), hnothing _ hfails⟩,
    ⟨hexit, by decide +kernel, by decide +kernel, ?_⟩, hexit', by decide +kernel, ?_⟩
  · obtain ⟨-, hmade | ⟨b, o, s, hbreak, -⟩⟩ := hsaving hexit
    · exact hmade
    · cases hbreak
  · obtain ⟨-, hmade | ⟨b, o, s, -, -, -, hbroken⟩⟩ := hwriting hexit'
    · exact ⟨[], hmade.sparing _⟩
    · exact ⟨o, hbroken.others⟩

/-- **A check that fails can leave a trace.**  The report from before is emptied where the file
system is full when the new one is written.  And a directory is made where the directories above the
report cannot all be made. -/
theorem CommandLine.run_failed_traces :
    (oneBadTree.readText ⟨"report.txt"⟩ = .ok "old" ∧
      ((checkOnly [⟨"a.json"⟩] (some ⟨"report.txt"⟩)).runIn (fullAfter 0) oneBadTree).exitCode =
        exitError ∧
      ((checkOnly [⟨"a.json"⟩] (some ⟨"report.txt"⟩)).runIn (fullAfter 0) oneBadTree).files.readText
        ⟨"report.txt"⟩ = .ok "") ∧
    oneBadTree.isPresent ⟨"new"⟩ = false ∧
      ((checkOnly [⟨"a.json"⟩] (some ⟨"new/../a.json/report.txt"⟩)).run oneBadTree).exitCode =
        exitError ∧
      ((checkOnly [⟨"a.json"⟩] (some ⟨"new/../a.json/report.txt"⟩)).run oneBadTree).stderr =
        (Error.io .alreadyExists).text ∧
      ((checkOnly [⟨"a.json"⟩] (some ⟨"new/../a.json/report.txt"⟩)).run oneBadTree).files.isPresent
        ⟨"new"⟩ = true := by
  decide +kernel

end BlankLines
