import BlankLines.Proofs.Check.Reports
import BlankLines.Proofs.Files.Resolve
import BlankLines.Proofs.Scan.Roots
import BlankLines.Scan.Filter

/-!
# Proofs — Scan — files that are met twice

A scan keeps one of each spelling.  Two spellings of one file are told apart only by what the
components of a path keep: how the path starts, and every `..` in it.

* `scanAll_finds_file_twice`: a file can be found twice, under two spellings.
* `scanAll_spellings`: any two paths found to one file differ in how they start, or one goes through
  a `..`; roots that all start alike and have no `..` find no file twice.
-/

namespace BlankLines

variable {takes : Path → Bool} {fs : FileSystem}

/-- A file found below a root is spelled like the root: it starts alike, and has a `..` only if the
root has one. -/
theorem exists_root_of_mem_scan (hn : fs.root.WellNamed) {roots : List Path} {p : Path}
    (hp : p ∈ keepFirst (roots.flatMap fun root => (fs.filesUnder root).filter takes)) :
    ∃ root ∈ roots, p.anchor = root.anchor ∧ (.up ∈ p.steps ↔ .up ∈ root.steps) := by
  obtain ⟨root, hroot, hp'⟩ := List.mem_flatMap.1 ((keepFirst_sublist _).subset hp)
  obtain ⟨ns, hns⟩ := fs.exists_steps_of_mem_filesUnder hn (List.mem_filter.1 hp').1
  exact ⟨root, hroot, Path.anchor_of_steps_eq hns⟩

/-- Paths that are kept lead to one file only if they start differently or go through a `..`. -/
theorem pairwise_spellings_keepFirst (fs : FileSystem) (ps : List Path) :
    (keepFirst ps).Pairwise fun p q => fs.SameFile p q →
      p.anchor ≠ q.anchor ∨ .up ∈ p.steps ∨ .up ∈ q.steps := by
  refine (pairwise_keepFirst ps).imp fun {p q} hpq hsame => ?_
  by_cases hp : .up ∈ p.steps
  · exact .inr (.inl hp)
  · by_cases hq : .up ∈ q.steps
    · exact .inr (.inr hq)
    · exact .inl fun ha => hpq (FileSystem.same_of_sameFile hp hq ha hsame)

/-- **The spellings of a file found twice.**  A scan of roots that are there succeeds, and finds
each file below them that the filter takes under the components it is met with.  If two of the paths
it finds lead to one file, they start differently, at the root, with a `.` or with
neither, or one of them goes through a `..`.  So if the roots all start alike and none has a `..`,
no file is found twice, and no two reports of a check are about one file. -/
theorem scanAll_spellings (takes : Path → Bool) (fs : FileSystem) (roots : List Path)
    (hn : fs.root.WellNamed) (hr : ∀ r ∈ roots, fs.isPresent r = true) :
    ∃ files, scanAll (scan takes fs.disk) roots = .ok files ∧
      (∀ r ∈ roots, ∀ p ∈ regularFiles (fs.disk.filesUnder r), takes p = true →
        ∃ q ∈ files, q.Same p) ∧
      (files.Pairwise fun p q => fs.SameFile p q →
        p.anchor ≠ q.anchor ∨ .up ∈ p.steps ∨ .up ∈ q.steps) ∧
      ((∀ r ∈ roots, ∀ r' ∈ roots, r.anchor = r'.anchor) → (∀ r ∈ roots, .up ∉ r.steps) →
        (files.Pairwise fun p q => ¬ fs.SameFile p q) ∧
        ∀ (rules : Rules) (reports : List FileReport),
          rules.reportFiles fs.disk files = .ok reports →
            reports.Pairwise fun a b => ¬ fs.SameFile a.tree b.tree) := by
  have hspell := pairwise_spellings_keepFirst fs (roots.flatMap fun root =>
    (fs.filesUnder root).filter takes)
  refine ⟨_, scanAll_eq hr, fun r hroot p hp hf => ?_, hspell, fun halike hup => ?_⟩
  · rw [regularFiles_filesUnder] at hp
    exact exists_mem_keepFirst (List.mem_flatMap.2 ⟨r, hroot, List.mem_filter.2 ⟨hp, hf⟩⟩)
  -- what is found is spelled like its root, and the roots leave neither way open
  have hdistinct : (keepFirst (roots.flatMap fun root =>
      (fs.filesUnder root).filter takes)).Pairwise fun p q => ¬ fs.SameFile p q := by
    refine hspell.imp_of_mem fun {p q} hp hq h hsame => ?_
    obtain ⟨rp, hrp, hap, hup'⟩ := exists_root_of_mem_scan hn hp
    obtain ⟨rq, hrq, haq, huq⟩ := exists_root_of_mem_scan hn hq
    rcases h hsame with h | h | h
    · exact h (by rw [hap, haq, halike rp hrp rq hrq])
    · exact hup rp hrp (hup'.1 h)
    · exact hup rq hrq (huq.1 h)
  refine ⟨hdistinct, fun rules reports h => ?_⟩
  rw [← Rules.map_tree_reportFiles h] at hdistinct
  exact List.pairwise_map.1 hdistinct

/-! ### A file under three spellings -/

/-- A current directory with one file and an empty directory. -/
def smallFiles : FileSystem where
  root := .directory [("w", .directory [("a.json", .file .empty), ("d", .directory [])])]
  current := ⟨"/w"⟩

/-- The filter that takes every `json` file. -/
def jsonFilter : Filter :=
  ⟨[['j', 's', 'o', 'n']], []⟩

theorem smallFiles_wellNamed : smallFiles.root.WellNamed := by
  simp only [smallFiles, Entry.WellNamed, Entry.AllWellNamed, Entry.NamedWell, and_true]
  decide +kernel

/-- A scan that finds two paths to one file. -/
theorem exists_found_twice {roots : List Path} (p q : Path) (names : List String)
    (hr : ∀ r ∈ roots, fs.isPresent r = true)
    (hk : keepFirst (roots.flatMap fun root => (fs.filesUnder root).filter takes) = [p, q])
    (hp : fs.fileAt? p = some names) (hq : fs.fileAt? q = some names) :
    (∀ r ∈ roots, fs.isPresent r = true) ∧
      ∃ files, scanAll (scan takes fs.disk) roots = .ok files ∧
        ¬ files.Pairwise fun p q => ¬ fs.SameFile p q := by
  refine ⟨hr, [p, q], by rw [scanAll_eq hr, hk], fun h => ?_⟩
  exact List.pairwise_pair.1 h ⟨names, hp, hq⟩

/-- **A file can be found twice**: with a `.` in front and without, by its absolute path, and
through a `..`. -/
theorem scanAll_finds_file_twice :
    smallFiles.root.WellNamed ∧
      ∀ roots ∈ [[⟨"."⟩, ⟨"a.json"⟩], [⟨"a.json"⟩, ⟨"/w/a.json"⟩], [⟨"a.json"⟩, ⟨"d/../a.json"⟩]],
        (∀ r ∈ roots, smallFiles.isPresent r = true) ∧
          ∃ files, scanAll (scan jsonFilter.includes smallFiles.disk) roots = .ok files ∧
            ¬ files.Pairwise fun p q => ¬ smallFiles.SameFile p q := by
  refine ⟨smallFiles_wellNamed, fun roots hroots => ?_⟩
  simp only [List.mem_cons, List.not_mem_nil, or_false] at hroots
  rcases hroots with rfl | rfl | rfl
  · exact exists_found_twice ⟨"./a.json"⟩ ⟨"a.json"⟩ ["w", "a.json"]
      (by decide +kernel) (by decide +kernel) (by decide +kernel) (by decide +kernel)
  · exact exists_found_twice ⟨"a.json"⟩ ⟨"/w/a.json"⟩ ["w", "a.json"]
      (by decide +kernel) (by decide +kernel) (by decide +kernel) (by decide +kernel)
  · exact exists_found_twice ⟨"a.json"⟩ ⟨"d/../a.json"⟩ ["w", "a.json"]
      (by decide +kernel) (by decide +kernel) (by decide +kernel) (by decide +kernel)

/-- The current directory and a file in it, both with a `.` in front: the file is found once. -/
theorem scanAll_spellings_here :
    smallFiles.root.WellNamed ∧
      ∃ files, scanAll (scan (fun _ => true) smallFiles.disk) [⟨"."⟩, ⟨"./a.json"⟩] = .ok files ∧
        files.Pairwise fun p q => ¬ smallFiles.SameFile p q := by
  have hr : ∀ r ∈ [Path.mk ".", ⟨"./a.json"⟩], smallFiles.isPresent r = true := by
    decide +kernel
  obtain ⟨files, hfiles, -, -, honce⟩ :=
    scanAll_spellings (fun _ => true) smallFiles [⟨"."⟩, ⟨"./a.json"⟩] smallFiles_wellNamed hr
  exact ⟨smallFiles_wellNamed, files, hfiles,
    (honce (by decide +kernel) (by decide +kernel)).1⟩

end BlankLines
