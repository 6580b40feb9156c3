import BlankLines.Proofs.Command.Failing
import BlankLines.Proofs.Config.Faults
import BlankLines.Proofs.Config.Showing

/-!
# Proofs — Command — a configuration that is judged and one that is used

A command judges a configuration file and does nothing else; a check reads the same file before it
looks for trees.  Where the check sets nothing by itself, the two come to one judgement, and say the
same about a file that they refuse.

* `CheckArgs.UsesOnly`: the settings of a check are those of a file.
* `Config.validatePlan_agrees`: the two accept the same files and refuse a text for the same fault.
-/

namespace BlankLines

/-- A check whose settings are those of a file and nothing else. -/
structure CheckArgs.UsesOnly (a : CheckArgs) (path : Path) : Prop where
  config : a.config = some path
  extensions : a.extensions = none
  exclude : a.exclude = []
  policy : a.policy = none
  declSpacing : a.noDeclSpacing = false
  statementSpacing : a.noStatementSpacing = false

variable {path : Path} {fs : FileSystem} {text : String} {f : IoFault} {e : Error}

/-! ### The check -/

namespace CheckArgs.UsesOnly

variable {a : CheckArgs}

theorem override_eq (h : a.UsesOnly path) (c : Config) : a.override c = c := by
  simp [override, h.extensions, h.exclude, h.policy, h.declSpacing, h.statementSpacing]

theorem settings_eq (h : a.UsesOnly path) (fs : FileSystem) :
    a.settings fs.disk false = (Config.ofRead path (fs.readText path)).bind Config.usable := by
  have hloaded : Config.choose fs.disk false a.config = Config.ofRead path (fs.readText path) := by
    rw [h.config]
    exact Config.loadFrom_eq_map fs.disk path
  rw [CheckArgs.settings_eq, hloaded]
  exact congrArg _ (funext fun c => congrArg _ (h.override_eq c))

theorem settings_of_text (h : a.UsesOnly path) (hread : fs.readText path = .ok text) :
    a.settings fs.disk false = (Config.ofFileText text).bind Config.usable := by
  rw [h.settings_eq, hread]
  rfl

theorem settings_of_fault (h : a.UsesOnly path) (hread : fs.readText path = .error f) :
    a.settings fs.disk false = .error (.unreadableFile path f) := by
  rw [h.settings_eq, hread]
  rfl

end CheckArgs.UsesOnly

/-- A check whose settings are an error has nothing to say but that. -/
theorem CheckArgs.plan_of_settings_error {a : CheckArgs} {cl : CommandLine}
    (h : a.settings fs.disk cl.noConfig = .error e) (colors : Bool) :
    Id.run (a.plan fs.disk cl colors) = { result := .error e } := by
  have htrees := trees_of_settings_error h
  simp only [plan, Id.run, bind, pure, htrees]

/-! ### The command that judges -/

namespace Config

theorem result_validatePlan_of_text (h : fs.readText path = .ok text) :
    (Id.run (validatePlan fs.disk path)).result =
      (validateText text).map fun _ =>
        { prints := "Configuration is valid: " ++ path.text ++ "\n" } := by
  have hthere : fs.disk.isPresent path = true := FileSystem.isPresent_of_readText h
  have hread : fs.disk.readText path = .ok text := h
  simp only [validatePlan, Id.run, bind, pure, hthere, if_true, hread]
  rfl

/-- A file that cannot be read is an error that tells whether it is there. -/
theorem result_validatePlan_of_fault (h : fs.readText path = .error f) :
    (Id.run (validatePlan fs.disk path)).result =
      .error (if fs.isPresent path then .io f else .setting (.missingFile path)) := by
  have hread : fs.disk.readText path = .error f := h
  have hthere : fs.disk.isPresent path = fs.isPresent path := rfl
  simp only [validatePlan, Id.run, bind, pure, hthere, hread]
  split <;> rfl

theorem notes_validatePlan (fs : FileSystem) (path : Path) :
    (Id.run (validatePlan fs.disk path)).notes = "" := by
  simp only [validatePlan, Id.run, bind, pure]
  split <;> rfl

theorem result_validatePlan_eq_error_iff (h : fs.readText path = .ok text) :
    (Id.run (validatePlan fs.disk path)).result = .error e ↔ TextFault text e := by
  rw [result_validatePlan_of_text h, map_eq_error_iff, validateText_eq_error_iff]

end Config

theorem CheckArgs.UsesOnly.settings_eq_error_iff {a : CheckArgs} (h : a.UsesOnly path)
    (hread : fs.readText path = .ok text) :
    a.settings fs.disk false = .error e ↔ Config.TextFault text e := by
  rw [h.settings_of_text hread, Config.ofFileText_bind_usable_eq_error_iff]

/-! ### One judgement -/

/-- A plan that is an error and has no notes comes to that error. -/
theorem Plan.run_of_error {p : Plan} (h : p.result = .error e) (hnotes : p.notes = "")
    (w : Surroundings) (fs : FileSystem) :
    p.run w fs = ⟨exitError, "", e.text w.malformed, fs⟩ := by
  have hfailed : p.run w fs = p.failed w e fs := by rw [run, h]
  rw [hfailed, failed, hnotes, String.empty_append]

/-- **One judgement on a configuration file**, by the command that judges it and by a check that
takes its settings from it and sets none by itself.
* The command succeeds exactly if the check gets its rules and its filter.
* If the file can be read as a text, each refuses it for the first fault of the text: it is no TOML,
  it has another version, one of its patterns is none or they nest too deeply, it names no extension
  or no rule is on.  Then the runs of both leave the same, whatever the reader says of a text that
  is no TOML.
* If it cannot, both fail: the check with the file and the fault; the command with the fault alone,
  or with the file where there is none. -/
theorem Config.validatePlan_agrees {a : CheckArgs} (h : a.UsesOnly path) (fs : FileSystem) :
    ((∃ product, (Id.run (validatePlan fs.disk path)).result = .ok product) ↔
      ∃ s, a.settings fs.disk false = .ok s) ∧
    (∀ text, fs.readText path = .ok text → ∀ e,
      ((Id.run (validatePlan fs.disk path)).result = .error e ↔
        a.settings fs.disk false = .error e) ∧
      (a.settings fs.disk false = .error e ↔ TextFault text e) ∧
      (a.settings fs.disk false = .error e → ∀ (w : Surroundings) (judging checking : CommandLine),
        judging.command = .validate path → checking.command = .check a →
        checking.noConfig = false →
        judging.runIn w fs = ⟨exitError, "", e.text w.malformed, fs⟩ ∧
          checking.runIn w fs = ⟨exitError, "", e.text w.malformed, fs⟩)) ∧
    ∀ f, fs.readText path = .error f →
      (Id.run (validatePlan fs.disk path)).result =
          .error (if fs.isPresent path then .io f else .setting (.missingFile path)) ∧
        a.settings fs.disk false = .error (.unreadableFile path f) := by
  refine ⟨?_, fun text hread e => ⟨?_, h.settings_eq_error_iff hread, ?_⟩,
    fun f hread => ⟨result_validatePlan_of_fault hread, h.settings_of_fault hread⟩⟩
  · cases hread : fs.readText path with
    | error f =>
        rw [result_validatePlan_of_fault hread, h.settings_of_fault hread]
        simp
    | ok text =>
        rw [exists_eq_ok_iff, exists_eq_ok_iff]
        refine forall_congr' fun e => not_congr ?_
        rw [result_validatePlan_eq_error_iff hread, h.settings_eq_error_iff hread]
  · rw [result_validatePlan_eq_error_iff hread, h.settings_eq_error_iff hread]
  · intro hsettings w judging checking hjudging hchecking hconfig
    have hfault := (h.settings_eq_error_iff hread).1 hsettings
    rw [← hconfig] at hsettings
    constructor
    · have hplan : judging.plan fs.disk w.terminal = validatePlan fs.disk path := by
        rw [CommandLine.plan, hjudging]
      rw [CommandLine.runIn, hplan]
      exact Plan.run_of_error ((result_validatePlan_eq_error_iff hread).2 hfault)
        (notes_validatePlan fs path) w fs
    · rw [CommandLine.runIn_eq hchecking, CheckArgs.plan_of_settings_error hsettings]
      exact Plan.run_of_error rfl rfl w fs

/-! ### A file with several faults -/

/-- A configuration with a bad pattern between others, no extension and no rule. -/
def manyFaults : Config where
  scanner := { extensions := [], exclude := ["**/a/**", "[b", "\x7b"] }
  rules := { declarationSpacing := false, statementSpacing := false }

/-- A file that shows it. -/
def withManyFaults : FileSystem where
  root := .directory [("c.toml", .file manyFaults.tomlText.toUTF8)]
  current := ⟨"/"⟩

/-- The first bad pattern is what both report, and all that they say. -/
theorem Config.validatePlan_agrees_pattern :
    manyFaults.FirstFault (.badPattern "[b" (.unreadable "[b" .unclosedClass)) ∧
      (CommandLine.run { command := .validate ⟨"c.toml"⟩ } withManyFaults).stderr =
        (Error.badPattern "[b" (.unreadable "[b" .unclosedClass)).text ∧
      CommandLine.run { command := .check { config := some ⟨"c.toml"⟩ } } withManyFaults =
        CommandLine.run { command := .validate ⟨"c.toml"⟩ } withManyFaults := by
  have honly : CheckArgs.UsesOnly { config := some ⟨"c.toml"⟩ } ⟨"c.toml"⟩ :=
    ⟨rfl, rfl, rfl, rfl, rfl, rfl⟩
  have hread : withManyFaults.readText ⟨"c.toml"⟩ = .ok manyFaults.tomlText := by decide +kernel
  have htexts : manyFaults.scanner.exclude = ["**/a/**"] ++ "[b" :: ["\x7b"] := rfl
  have hbefore : ∀ t ∈ ["**/a/**"], ∃ p, Glob.parse t = .ok p := by
    rw [List.forall_mem_singleton]
    exact ⟨_, by simp [Glob.parse, Glob.parseFrom]; rfl⟩
  have hpattern : Glob.parse "[b" = .error .unclosedClass := by
    have hclass : Glob.readClass ['b'] = .error .unclosedClass := rfl
    have hparse : Glob.parse "[b" = Glob.parseFrom {} none ['[', 'b'] := rfl
    rw [hparse, Glob.parseFrom]
    split
    next hok => cases hclass.symm.trans hok
    next herror => cases hclass.symm.trans herror; rfl
  have hfault := FirstFault.pattern (.inl rfl) htexts hbefore hpattern
  obtain ⟨-, hsettings, hruns⟩ :=
    (validatePlan_agrees honly withManyFaults).2.1 manyFaults.tomlText hread _
  obtain ⟨hjudged, hchecked⟩ := hruns (hsettings.2 (.faulty manyFaults.ofTomlText_tomlText hfault))
    {} { command := .validate ⟨"c.toml"⟩ } { command := .check { config := some ⟨"c.toml"⟩ } }
    rfl rfl rfl
  exact ⟨hfault, congrArg Outcome.stderr hjudged, hchecked.trans hjudged.symm⟩

end BlankLines
