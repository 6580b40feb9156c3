import BlankLines.Proofs.Command.Steps
import BlankLines.Proofs.Files.Saving
import BlankLines.Proofs.Scan.Duplicates

/-!
# Proofs — Command — a check that is run again

A check looks at a few paths and walks from its roots; the report it saves can be among what it
looks at.

* `CheckArgs.plan_eq_of_asBefore`: a check comes to the same wherever all it looks at is the same.
* `CommandLine.run_run`: a check whose report is kept apart from what it looks at does the same when
  it is run again on what it left behind, and changes nothing more.
* `CommandLine.run_run_ne`: reports that are not, and the other outcome.
-/

namespace BlankLines

open FileSystem (Alike Kept)

/-! ### What a check looks at -/

/-- Of several paths those that are asked for until one is there. -/
def FileSystem.untilPresent (fs : FileSystem) : List Path → List Path
  | [] => []
  | path :: rest => if fs.isPresent path then [path] else path :: fs.untilPresent rest

/-- The paths at which a configuration is looked for. -/
def Config.lookups (fs : FileSystem) (noConfig : Bool) (path? : Option Path) : List Path :=
  if noConfig then []
  else
    match path? with
    | some path => [path]
    | none      => fs.untilPresent (Id.run (candidates fs.disk))

/-- The source text that the tree in a file names. -/
def SourceTree.sourceOf? (fs : FileSystem) (path : Path) : Option Path :=
  (Id.run (SourceTree.load fs.disk path)).toOption.bind fun t => t.sourcePath? path

namespace CheckArgs

/-- The paths that a check reads: configurations, trees and the source texts these name. -/
def reads (a : CheckArgs) (noConfig : Bool) (fs : FileSystem) : List Path :=
  Config.lookups fs noConfig a.config ++
    match Id.run (a.trees fs.disk noConfig) with
    | .ok (_, paths) => paths ++ paths.filterMap (SourceTree.sourceOf? fs)
    | .error _       => []

/-- Whether a check takes a file that it meets for a tree. -/
def takes (a : CheckArgs) (noConfig : Bool) (fs : FileSystem) (path : Path) : Bool :=
  match Id.run (a.settings fs.disk noConfig) with
  | .ok (_, f) => f.includes path
  | .error _   => false

/-- All that a check looks at in one file system is the same in another. -/
structure AsBefore (a : CheckArgs) (noConfig : Bool) (fs fs' : FileSystem) : Prop where
  current : fs'.current = fs.current
  config : fs'.config = fs.config
  reads : ∀ p ∈ a.reads noConfig fs, Alike fs fs' p
  roots : ∀ root ∈ a.paths, fs.isPresent root = true → fs'.isPresent root = true
  walks : ∀ root ∈ a.paths, fs.isPresent root = true →
    (fs'.filesUnder root).filter (a.takes noConfig fs) =
      (fs.filesUnder root).filter (a.takes noConfig fs)

end CheckArgs

variable {fs fs' : FileSystem}

/-! ### Looking again -/

namespace FileSystem.Alike

variable {p : Path}

/-- What is made of a text that can be read. -/
theorem ofReadText {β : Type} (h : Alike fs fs' p) {f : String → Except Error β}
    {g : IoFault → Error} {b : β}
    (hb : (match fs.readText p with
      | .ok text => f text
      | .error e => .error (g e)) = .ok b) :
    (match fs'.readText p with
      | .ok text => f text
      | .error e => .error (g e)) = .ok b := by
  have hr := h.readText
  cases hp : fs.readText p with
  | error e =>
      rw [hp] at hb
      cases hb
  | ok text =>
      rw [hp] at hb hr
      cases hp' : fs'.readText p with
      | error e =>
          rw [hp'] at hr
          cases hr
      | ok text' =>
          rw [hp'] at hr
          cases hr
          exact hb

theorem loadFrom (h : Alike fs fs' p) {c : Config} (hc : Config.loadFrom fs.disk p = .ok c) :
    Config.loadFrom fs'.disk p = .ok c :=
  h.ofReadText (g := .unreadableFile p) hc

theorem loadTree (h : Alike fs fs' p) {t : SourceTree}
    (ht : SourceTree.load fs.disk p = .ok t) : SourceTree.load fs'.disk p = .ok t :=
  h.ofReadText (g := .unreadableFile p) ht

theorem loadLines {path? : Option Path} (h : ∀ p ∈ path?, Alike fs fs' p) :
    Text.Lines.load? fs'.disk path? = Text.Lines.load? fs.disk path? := by
  cases path? with
  | none => rfl
  | some p =>
      have hr := (h p rfl).readText
      simp only [Text.Lines.load?, Text.Lines.load, FileSystem.disk, bind, pure]
      cases hp : fs.readText p <;> cases hp' : fs'.readText p <;> rw [hp, hp'] at hr <;>
        cases hr <;> rfl

end FileSystem.Alike

theorem Config.loadFirst_eq_of_alike {ps : List Path} {c : Config}
    (h : ∀ p ∈ fs.untilPresent ps, Alike fs fs' p) (hc : loadFirst fs.disk ps = .ok c) :
    loadFirst fs'.disk ps = .ok c := by
  induction ps with
  | nil => exact hc
  | cons p rest ih =>
      rw [FileSystem.untilPresent] at h
      rw [loadFirst_cons] at hc ⊢
      -- up to the first that is there, each has to be missing in both
      by_cases hp : fs.isPresent p = true
      · rw [if_pos hp] at h hc
        have hhere := h p List.mem_cons_self
        rw [if_pos (hhere.isPresent.trans hp)]
        exact hhere.loadFrom hc
      · rw [if_neg hp, List.forall_mem_cons] at h
        rw [if_neg hp] at hc
        rw [if_neg (h.1.isPresent ▸ hp)]
        exact ih h.2 hc

theorem Config.choose_eq_of_alike {noConfig : Bool} {path? : Option Path} {c : Config}
    (hcurrent : fs'.current = fs.current) (hconfig : fs'.config = fs.config)
    (h : ∀ p ∈ lookups fs noConfig path?, Alike fs fs' p)
    (hc : choose fs.disk noConfig path? = .ok c) : choose fs'.disk noConfig path? = .ok c := by
  unfold choose lookups at *
  split at hc
  next hno =>
    rw [if_pos hno]
    exact hc
  next hno =>
    rw [if_neg hno] at h ⊢
    cases path? with
    | some path => exact (h path List.mem_cons_self).loadFrom hc
    | none =>
        have hcandidates : candidates fs'.disk = candidates fs.disk := by
          simp [candidates, FileSystem.disk, hcurrent, hconfig]
        simp only [load, bind] at hc ⊢
        rw [hcandidates]
        exact loadFirst_eq_of_alike h hc

namespace Rules

variable {rules : Rules}

theorem reportFile_eq_of_alike {p : Path} {r : FileReport} (hp : Alike fs fs' p)
    (hs : ∀ s ∈ SourceTree.sourceOf? fs p, Alike fs fs' s)
    (hr : rules.reportFile fs.disk p = .ok r) : rules.reportFile fs'.disk p = .ok r := by
  rw [reportFile_eq] at hr ⊢
  obtain ⟨t, ht, hr⟩ := bind_eq_ok_iff.1 hr
  have hsource : SourceTree.sourceOf? fs p = t.sourcePath? p := by
    simp [SourceTree.sourceOf?, ht, Id.run, Except.toOption]
  rw [hsource] at hs
  refine bind_eq_ok_iff.2 ⟨t, hp.loadTree ht, ?_⟩
  simpa only [FileSystem.Alike.loadLines hs] using hr

theorem reportFiles_eq_of_alike {ps : List Path} {rs : List FileReport}
    (hp : ∀ p ∈ ps, Alike fs fs' p)
    (hs : ∀ s ∈ ps.filterMap (SourceTree.sourceOf? fs), Alike fs fs' s)
    (hr : rules.reportFiles fs.disk ps = .ok rs) : rules.reportFiles fs'.disk ps = .ok rs := by
  induction ps generalizing rs with
  | nil => exact hr
  | cons p rest ih =>
      rw [List.forall_mem_cons] at hp
      rw [reportFiles_cons] at hr ⊢
      obtain ⟨r, hfile, hr⟩ := bind_eq_ok_iff.1 hr
      obtain ⟨more, hrest, rfl⟩ := map_eq_ok_iff.1 hr
      have hhere : ∀ s ∈ SourceTree.sourceOf? fs p, Alike fs fs' s := fun s hsp =>
        hs s (List.mem_filterMap.2 ⟨p, List.mem_cons_self, hsp⟩)
      have hmore : ∀ s ∈ rest.filterMap (SourceTree.sourceOf? fs), Alike fs fs' s := by
        intro s hsr
        obtain ⟨q, hq, hsq⟩ := List.mem_filterMap.1 hsr
        exact hs s (List.mem_filterMap.2 ⟨q, List.mem_cons_of_mem p hq, hsq⟩)
      exact bind_eq_ok_iff.2 ⟨r, reportFile_eq_of_alike hp.1 hhere hfile,
        map_eq_ok_iff.2 ⟨more, ih hp.2 hmore hrest, rfl⟩⟩

end Rules

theorem scanAll_eq_of_walks {takes : Path → Bool} {roots files : List Path}
    (hroots : ∀ root ∈ roots, fs.isPresent root = true → fs'.isPresent root = true)
    (hwalks : ∀ root ∈ roots, fs.isPresent root = true →
      (fs'.filesUnder root).filter takes = (fs.filesUnder root).filter takes)
    (h : scanAll (scan takes fs.disk) roots = .ok files) :
    scanAll (scan takes fs'.disk) roots = .ok files := by
  have hpresent : ∀ root ∈ roots, fs.isPresent root = true := by
    rw [scanAll_eq_map] at h
    obtain ⟨here, heach, -⟩ := map_eq_ok_iff.1 h
    exact isPresent_of_scanEach heach
  have hsame := List.map_congr_left fun root hr => hwalks root hr (hpresent root hr)
  rw [scanAll_eq hpresent, List.flatMap_def] at h
  rw [scanAll_eq fun root hr => hroots root hr (hpresent root hr), List.flatMap_def, hsame, h]

namespace CheckArgs

variable {a : CheckArgs} {noConfig : Bool}

namespace AsBefore

theorem settings (h : a.AsBefore noConfig fs fs') {rules : Rules} {f : Filter}
    (hf : a.settings fs.disk noConfig = .ok (rules, f)) :
    a.settings fs'.disk noConfig = .ok (rules, f) := by
  rw [settings_eq] at hf ⊢
  obtain ⟨c, hc, hf⟩ := bind_eq_ok_iff.1 hf
  have hlookups : ∀ p ∈ Config.lookups fs noConfig a.config, Alike fs fs' p := fun p hp =>
    h.reads p (List.mem_append_left _ hp)
  exact bind_eq_ok_iff.2 ⟨c, Config.choose_eq_of_alike h.current h.config hlookups hc, hf⟩

theorem trees (h : a.AsBefore noConfig fs fs') {rules : Rules} {paths : List Path}
    (ht : a.trees fs.disk noConfig = .ok (rules, paths)) :
    a.trees fs'.disk noConfig = .ok (rules, paths) := by
  rw [trees_eq] at ht ⊢
  obtain ⟨⟨rules', f⟩, hf, ht⟩ := bind_eq_ok_iff.1 ht
  obtain ⟨files, hscan, heq⟩ := map_eq_ok_iff.1 ht
  have htakes : a.takes noConfig fs = f.includes := by
    funext p
    simp [takes, hf, Id.run]
  have hwalks := h.walks
  rw [htakes] at hwalks
  exact bind_eq_ok_iff.2 ⟨(rules', f), h.settings hf,
    map_eq_ok_iff.2 ⟨files, scanAll_eq_of_walks h.roots hwalks hscan, heq⟩⟩

end AsBefore

/-- **What a check depends on.**  A check that is not an error comes to the same in every file
system in which all it looks at is the same. -/
theorem plan_eq_of_asBefore {cl : CommandLine} {colors : Bool} {product : Product}
    (h : a.AsBefore cl.noConfig fs fs')
    (hp : (Id.run (a.plan fs.disk cl colors)).result = .ok product) :
    a.plan fs'.disk cl colors = a.plan fs.disk cl colors := by
  simp only [plan, Id.run, bind, pure] at hp ⊢
  cases ht : a.trees fs.disk cl.noConfig with
  | error e =>
      rw [ht] at hp
      cases hp
  | ok rp =>
      obtain ⟨rules, paths⟩ := rp
      have hreads : ∀ p ∈ paths ++ paths.filterMap (SourceTree.sourceOf? fs), Alike fs fs' p :=
        fun p hp => h.reads p (List.mem_append_right _ (by simpa [reads, ht, Id.run] using hp))
      rw [List.forall_mem_append] at hreads
      rw [ht] at hp
      rw [h.trees ht]
      cases hr : rules.reportFiles fs.disk paths with
      | error e =>
          simp only [hr] at hp
          cases hp
      | ok reports => simp only [hr, Rules.reportFiles_eq_of_alike hreads.1 hreads.2 hr]

/-! ### A report that is kept apart -/

/-- The report that a check saved in `fs'` is kept apart from what the check looked at in `fs`. -/
structure KeepsApart (a : CheckArgs) (noConfig : Bool) (fs fs' : FileSystem) (report : Path) :
    Prop where
  /-- The report is not read. -/
  unread : ∀ p ∈ a.reads noConfig fs, ¬ fs'.SameFile p report
  /-- The report is not taken for a tree where a walk meets it. -/
  unmet : ∀ root ∈ a.paths, ∀ x ∈ fs'.filesMet root, a.takes noConfig fs x.2 = true →
    fs'.fileAt? report ≠ some x.1
  /-- Nothing that is asked for in vain was made with the report. -/
  unmade : ∀ p ∈ a.reads noConfig fs, fs'.isPresent p = true → fs.isPresent p = true

instance decidableKeepsApart (a : CheckArgs) (noConfig : Bool) (fs fs' : FileSystem)
    (report : Path) : Decidable (a.KeepsApart noConfig fs fs' report) :=
  decidable_of_iff
    ((∀ p ∈ a.reads noConfig fs, ¬ fs'.SameFile p report) ∧
      (∀ root ∈ a.paths, ∀ x ∈ fs'.filesMet root, a.takes noConfig fs x.2 = true →
        fs'.fileAt? report ≠ some x.1) ∧
      ∀ p ∈ a.reads noConfig fs, fs'.isPresent p = true → fs.isPresent p = true)
    ⟨fun ⟨h₁, h₂, h₃⟩ => ⟨h₁, h₂, h₃⟩, fun ⟨h₁, h₂, h₃⟩ => ⟨h₁, h₂, h₃⟩⟩

theorem KeepsApart.asBefore {report : Path} {o : List String} {c : ByteArray}
    (h : a.KeepsApart noConfig fs fs' report) (hkept : Kept o fs fs')
    (hthere : fs'.locate report = .ok ⟨o, some (.file c), false⟩) :
    a.AsBefore noConfig fs fs' := by
  have hat : fs'.fileAt? report = some o := by simp [FileSystem.fileAt?, hthere]
  have ho : fs'.root.get? o = some (.file c) := (FileSystem.names_of_locate hthere).2.symm
  exact {
    current := hkept.current
    config := hkept.config
    reads := fun p hp => hkept.alike (fun hpo => h.unread p hp ⟨o, hpo, hat⟩) (h.unmade p hp)
    roots := fun _ _ hroot => hkept.isPresent hroot
    walks := fun root hr hroot => hkept.filter_filesUnder ho hroot fun x hx hx' heq =>
      h.unmet root hr x hx hx' (heq ▸ hat) }

end CheckArgs

/-! ### The run again -/

/-- A run that is not an error prints or saves what was planned. -/
theorem Plan.run_cases {p : Plan} {w : Surroundings} (h : (p.run w fs).exitCode ≠ exitError) :
    ∃ product, p.result = .ok product ∧
      (product.saving = none ∧ (p.run w fs).files = fs ∨
        ∃ s fs', product.saving = some s ∧ (s.perform w.break?).run fs = (.ok (), fs') ∧
          p.run w fs = ⟨product.exitCode, product.prints, p.notes, fs'⟩) := by
  have hran := p.ran_run w fs
  generalize p.run w fs = outcome at h hran ⊢
  cases hran with
  | failed => exact absurd rfl h
  | unsaved => exact absurd rfl h
  | @printed product hresult hs => exact ⟨product, hresult, .inl ⟨hs, rfl⟩⟩
  | @saved product s fs' hresult hs hrun =>
      exact ⟨product, hresult, .inr ⟨s, fs', hs, hrun, rfl⟩⟩

/-- **A check that is run again.**  A check that ends without an error, and whose report, if it is
saved, is kept apart from what the check looks at, has the same outcome when it is run again on the
file system it left behind: the same exit code, the same output, and the same files. -/
theorem CommandLine.run_run {cl : CommandLine} {a : CheckArgs} (hcl : cl.command = .check a)
    (w : Surroundings) (hr : fs.Rooted) (hexit : (cl.runIn w fs).exitCode ≠ exitError)
    (hapart : ∀ report ∈ a.output, a.KeepsApart cl.noConfig fs (cl.runIn w fs).files report) :
    cl.runIn w (cl.runIn w fs).files = cl.runIn w fs := by
  have hrun := runIn_eq hcl w fs
  rw [hrun] at hexit
  obtain ⟨product, hproduct, ⟨-, hfiles⟩ | ⟨s, fs', hs, hdone, houtcome⟩⟩ := Plan.run_cases hexit
  · -- nothing was saved, so the run starts from where it started
    rw [← hrun] at hfiles
    rw [hfiles]
  · -- the plan is the same again, and to carry it out again changes nothing
    have hfiles : (cl.runIn w fs).files = fs' := by rw [hrun, houtcome]
    obtain ⟨o, hkept, hthere, hagain⟩ := Saving.exists_done hr hdone
    have hpath : s.path ∈ a.output := by
      rw [← CheckArgs.path_of_saving hproduct, hs]
      rfl
    have hbefore : a.AsBefore cl.noConfig fs fs' :=
      (hfiles ▸ hapart s.path hpath).asBefore hkept hthere
    rw [hfiles, runIn_eq hcl w fs', CheckArgs.plan_eq_of_asBefore hbefore hproduct, hrun, houtcome]
    simp [Plan.run, hproduct, hs, hagain]

/-! ### Reports that are read -/

/-- A check of one root that saves its report. -/
def checkSaving (root output : Path) : CommandLine where
  command := .check { paths := [root], output := some output }

/-- A tree in the current directory, and its source text. -/
def oneTree : FileSystem where
  root := .directory
    [("a.go", .file .empty),
     ("w", .directory
      [("a.json", .file "\x7b\"source\":\"/a.go\",\"declarations\":[]\x7d".toUTF8)])]
  current := ⟨"/w"⟩

/-- A report that is saved among the trees, but is not taken for one. -/
theorem CommandLine.run_run_beside_tree :
    ((checkSaving ⟨"."⟩ ⟨"report.txt"⟩).run oneTree).exitCode ≠ exitError ∧
      (checkSaving ⟨"."⟩ ⟨"report.txt"⟩).run
          ((checkSaving ⟨"."⟩ ⟨"report.txt"⟩).run oneTree).files =
        (checkSaving ⟨"."⟩ ⟨"report.txt"⟩).run oneTree := by
  have hexit : ((checkSaving ⟨"."⟩ ⟨"report.txt"⟩).run oneTree).exitCode ≠ exitError := by
    decide +kernel
  refine ⟨hexit, run_run rfl {} ⟨_, rfl⟩ hexit fun report h => ?_⟩
  obtain rfl := Option.some.inj h
  decide +kernel

/-- The exit codes of a command line that is run and then run again on what it left behind. -/
def CommandLine.exitCodesTwice (cl : CommandLine) (fs : FileSystem) : Nat × Nat :=
  ((cl.run fs).exitCode, (cl.run (cl.run fs).files).exitCode)

/-- **A check can undo itself**: with a report that the next run takes for a tree, one that is
where the next run looks for its configuration, and one for which a directory was made there. -/
theorem CommandLine.run_run_ne :
    (checkSaving ⟨"d"⟩ ⟨"d/report.json"⟩).exitCodesTwice smallFiles = (exitSuccess, exitError) ∧
      (checkSaving ⟨"d"⟩ ⟨".blankline-guard.toml"⟩).exitCodesTwice smallFiles =
        (exitSuccess, exitError) ∧
      (checkSaving ⟨"d"⟩ ⟨".blankline-guard.toml/report.txt"⟩).exitCodesTwice smallFiles =
        (exitSuccess, exitError) := by
  decide +kernel

end BlankLines
