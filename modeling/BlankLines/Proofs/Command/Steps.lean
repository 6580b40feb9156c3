import BlankLines.Command.Run
import BlankLines.Proofs.Check.Reports
import BlankLines.Proofs.Scan.Roots

/-!
# Proofs — Command — the steps of a check

A check asks one thing after the other, and the first that fails is its error.  Here each step is
written as what follows from the step before, on any disk whose answers do not change.

* `Config.usable_eq_error_iff`: settings that cannot be used are those that are not valid.
* `CheckArgs.trees_eq`, `CheckArgs.result_plan_eq`: settings, then trees, then reports.
* `Plan.Ran`, `Plan.ran_run`: the four ways in which a plan is carried out.
* `CommandLine.runIn_eq`: a check is run as it is planned.
-/

namespace BlankLines

variable {disk : Disk Id} {fs : FileSystem}

theorem Config.loadFirst_cons (p : Path) (rest : List Path) :
    loadFirst fs.disk (p :: rest) =
      if fs.isPresent p then loadFrom fs.disk p else loadFirst fs.disk rest := rfl

theorem Config.validate_eq_ok_iff {c : Config} :
    c.validate = .ok () ↔
      c.checkVersion = .ok () ∧ (∃ excludes, compileExcludes c.scanner.exclude = .ok excludes) ∧
        c.scanner.extensions.isEmpty = false ∧ c.rules.anyEnabled = true := by
  rw [validate]
  simp only [bind_eq_ok_iff, exists_and_right]
  refine and_congr (Unique.exists_iff) (and_congr_right fun _ => ?_)
  cases c.scanner.extensions.isEmpty <;> cases c.rules.anyEnabled <;>
    simp [bind, Except.bind, pure, Except.pure, throw, throwThe, MonadExceptOf.throw]

/-- The patterns of a configuration that is valid can be compiled. -/
theorem Config.exists_filter_of_validate {c : Config} (h : c.validate = .ok ()) :
    ∃ f, Filter.ofConfig c.scanner = .ok f := by
  obtain ⟨-, ⟨excludes, hexcludes⟩, -⟩ := validate_eq_ok_iff.1 h
  exact ⟨_, bind_eq_ok_iff.2 ⟨excludes, hexcludes, rfl⟩⟩

/-- A configuration can be used unless it is not valid. -/
theorem Config.usable_eq_error_iff {c : Config} {e : Error} :
    c.usable = .error e ↔ c.validate = .error e := by
  refine ⟨fun h => ?_, fun h => bind_eq_error_iff.2 (.inl h)⟩
  rcases bind_eq_error_iff.1 h with h | ⟨_, hvalid, h⟩
  · exact h
  · obtain ⟨f, hf⟩ := exists_filter_of_validate hvalid
    rw [hf] at h
    cases h

namespace CheckArgs

theorem settings_eq (a : CheckArgs) (noConfig : Bool) :
    a.settings disk noConfig =
      (Config.choose disk noConfig a.config).bind fun c => (a.override c).usable := rfl

theorem trees_eq (a : CheckArgs) (noConfig : Bool) :
    a.trees disk noConfig =
      (a.settings disk noConfig).bind fun s =>
        (scanAll (scan s.2.includes disk) a.paths).map fun paths => (s.1, paths) := by
  simp only [trees, bind, pure]
  cases a.settings disk noConfig <;> rfl

theorem result_plan_eq (a : CheckArgs) (cl : CommandLine) (colors : Bool) :
    (Id.run (a.plan disk cl colors)).result =
      (a.trees disk cl.noConfig).bind fun s =>
        (s.1.reportFiles disk s.2).map fun reports =>
          a.product cl.quiet colors (0 < cl.verbose) reports := by
  simp only [plan, Id.run, bind, pure]
  cases a.trees disk cl.noConfig with
  | error e => rfl
  | ok s =>
      obtain ⟨rules, paths⟩ := s
      simp only [Except.bind]
      cases rules.reportFiles disk paths <;> rfl

/-- The text that a check saves goes where the command line says. -/
theorem path_of_saving {a : CheckArgs} {cl : CommandLine} {colors : Bool} {product : Product}
    (hp : (Id.run (a.plan disk cl colors)).result = .ok product) :
    product.saving.map Saving.path = a.output := by
  simp only [plan, Id.run, bind, pure] at hp
  split at hp
  · cases hp
  · split at hp
    · cases hp
    · obtain rfl := Except.ok.inj hp
      simp [CheckArgs.product, Function.comp_def]

end CheckArgs

/-! ### Carrying out a plan -/

namespace Plan

/-- The outcome of a plan: it was an error; it had nothing to save; what it had to save was saved,
or could not be. -/
inductive Ran (p : Plan) (w : Surroundings) (fs : FileSystem) : Outcome → Prop where
  | failed {e : Error} (h : p.result = .error e) : Ran p w fs (p.failed w e fs)
  | printed {product : Product} (h : p.result = .ok product) (hs : product.saving = none) :
      Ran p w fs ⟨product.exitCode, product.prints, p.notes, fs⟩
  | saved {product : Product} {s : Saving} {fs' : FileSystem} (h : p.result = .ok product)
      (hs : product.saving = some s) (hrun : (s.perform w.break?).run fs = (.ok (), fs')) :
      Ran p w fs ⟨product.exitCode, product.prints, p.notes, fs'⟩
  | unsaved {product : Product} {s : Saving} {f : IoFault} {fs' : FileSystem}
      (h : p.result = .ok product) (hs : product.saving = some s)
      (hrun : (s.perform w.break?).run fs = (.error f, fs')) :
      Ran p w fs (p.failed w (.io f) fs')

theorem ran_run (p : Plan) (w : Surroundings) (fs : FileSystem) : p.Ran w fs (p.run w fs) := by
  unfold run
  cases hresult : p.result with
  | error e => exact .failed hresult
  | ok product =>
      cases hs : product.saving with
      | none => simpa only [hs] using Ran.printed hresult hs
      | some s =>
          rcases hrun : (s.perform w.break?).run fs with ⟨f | _, fs'⟩
          · simpa only [hs, hrun] using Ran.unsaved hresult hs hrun
          · simpa only [hs, hrun] using Ran.saved hresult hs hrun

end Plan

theorem CommandLine.runIn_eq {cl : CommandLine} {a : CheckArgs} (h : cl.command = .check a)
    (w : Surroundings) (fs : FileSystem) :
    cl.runIn w fs = Plan.run (Id.run (a.plan fs.disk cl (cl.color.colors w.terminal))) w fs := by
  simp [runIn, plan, h]

end BlankLines
