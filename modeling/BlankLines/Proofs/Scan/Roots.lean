import BlankLines.Proofs.Files.Walk
import BlankLines.Proofs.Results
import BlankLines.Scan.Roots

/-!
# Proofs — Scan — one root after the other

A scan finds what is below each root in turn.  The scan of a root through its directories fails
exactly if the root is missing.

* `scan_eq_ok_iff`, `scan_eq_error_iff`: what the scan of a root finds, and when it fails.
* `scanEach_of_ok`: what several scans find together; `scanAll_eq`: the same of a file system in
  memory, each path once.
* `isPresent_of_scanEach`, `exists_missing_of_scanEach`: what the result of a scan says about its
  roots.
-/

namespace BlankLines

/-! ### One root -/

section
variable {takes : Path → Bool} {disk : Disk Id} {root : Path}

theorem scan_of_isPresent (takes : Path → Bool) (h : disk.isPresent root = true) :
    scan takes disk root = .ok ((regularFiles (disk.filesUnder root)).filter takes) := by
  simp only [scan, bind, pure, h]
  rfl

theorem scan_of_isPresent_eq_false (takes : Path → Bool) (h : disk.isPresent root = false) :
    scan takes disk root = .error (.missingRoot root) := by
  simp only [scan, bind, pure, h]
  rfl

theorem scan_eq_ok_iff {found : List Path} :
    scan takes disk root = .ok found ↔
      disk.isPresent root = true ∧ found = (regularFiles (disk.filesUnder root)).filter takes := by
  cases h : disk.isPresent root with
  | true =>
      rw [scan_of_isPresent takes h, Except.ok.injEq, eq_comm]
      simp
  | false => simp [scan_of_isPresent_eq_false takes h]

theorem scan_eq_error_iff {e : Error} :
    scan takes disk root = .error e ↔ disk.isPresent root = false ∧ e = .missingRoot root := by
  cases h : disk.isPresent root with
  | true => simp [scan_of_isPresent takes h]
  | false =>
      rw [scan_of_isPresent_eq_false takes h, Except.error.injEq, eq_comm]
      simp

end

/-! ### Several roots -/

section
variable {scanRoot : Path → Id (Except Error (List Path))}

theorem scanEach_cons (scanRoot : Path → Id (Except Error (List Path))) (root : Path)
    (rest : List Path) :
    scanEach scanRoot (root :: rest) =
      (scanRoot root).bind fun here => (scanEach scanRoot rest).map fun more => here ++ more := by
  simp only [scanEach, bind, pure]
  cases scanRoot root with
  | error e => rfl
  | ok here => cases scanEach scanRoot rest <;> rfl

theorem scanEach_of_ok {roots : List Path} {below : Path → List Path}
    (h : ∀ root ∈ roots, scanRoot root = .ok (below root)) :
    scanEach scanRoot roots = .ok (roots.flatMap below) := by
  induction roots with
  | nil => rfl
  | cons root rest ih =>
      rw [List.forall_mem_cons] at h
      rw [scanEach_cons, h.1, ih h.2]
      rfl

theorem scanAll_eq_map (scanRoot : Path → Id (Except Error (List Path))) (roots : List Path) :
    scanAll scanRoot roots = (scanEach scanRoot roots).map keepFirst := rfl

/-- Scans that succeed succeed for each root. -/
theorem exists_ok_of_scanEach {roots found : List Path} (h : scanEach scanRoot roots = .ok found)
    {root : Path} (hroot : root ∈ roots) : ∃ here, scanRoot root = .ok here ∧ here ⊆ found := by
  induction roots generalizing found with
  | nil => cases hroot
  | cons r rest ih =>
      rw [scanEach_cons] at h
      obtain ⟨here, hhere, h⟩ := bind_eq_ok_iff.1 h
      obtain ⟨more, hmore, rfl⟩ := map_eq_ok_iff.1 h
      rcases List.mem_cons.1 hroot with rfl | hroot
      · exact ⟨here, hhere, List.subset_append_left _ _⟩
      · obtain ⟨there, hthere, hsub⟩ := ih hmore hroot
        exact ⟨there, hthere, List.subset_append_of_subset_right _ hsub⟩

/-- Scans that fail fail for a root. -/
theorem exists_error_of_scanEach {roots : List Path} {e : Error}
    (h : scanEach scanRoot roots = .error e) : ∃ root ∈ roots, scanRoot root = .error e := by
  induction roots with
  | nil => cases h
  | cons root rest ih =>
      rw [scanEach_cons] at h
      rcases bind_eq_error_iff.1 h with hroot | ⟨here, -, h⟩
      · exact ⟨root, List.mem_cons_self, hroot⟩
      · obtain ⟨failing, hmem, hfailing⟩ := ih (map_eq_error_iff.1 h)
        exact ⟨failing, List.mem_cons_of_mem _ hmem, hfailing⟩

end

section
variable {takes : Path → Bool} {disk : Disk Id} {roots : List Path}

/-- A scan that succeeds found each root. -/
theorem isPresent_of_scanEach {files : List Path}
    (h : scanEach (scan takes disk) roots = .ok files) :
    ∀ root ∈ roots, disk.isPresent root = true := fun root hroot => by
  obtain ⟨here, hhere, -⟩ := exists_ok_of_scanEach h hroot
  exact (scan_eq_ok_iff.1 hhere).1

/-- A scan that fails misses a root. -/
theorem exists_missing_of_scanEach {e : Error} (h : scanEach (scan takes disk) roots = .error e) :
    ∃ root ∈ roots, disk.isPresent root = false ∧ e = .missingRoot root := by
  obtain ⟨root, hroot, hmissing⟩ := exists_error_of_scanEach h
  exact ⟨root, hroot, scan_eq_error_iff.1 hmissing⟩

end

/-! ### Files in memory -/

section
variable {takes : Path → Bool} {fs : FileSystem}

theorem filterMap_filesUnder (fs : FileSystem) (root : Path) :
    (fs.disk.filesUnder root).filterMap Except.toOption = fs.walk root := by
  simp [FileSystem.disk, List.filterMap_map, Function.comp_def, Except.toOption]

theorem regularFiles_filesUnder (fs : FileSystem) (root : Path) :
    regularFiles (fs.disk.filesUnder root) = fs.filesUnder root := by
  rw [regularFiles, filterMap_filesUnder, FileSystem.walk, FileSystem.filesUnder]
  rcases fs.locate root with fault | ⟨names, _ | e, slash⟩
  · rfl
  · rfl
  · exact Entry.files_of_walk root e

theorem scan_eq {root : Path} (h : fs.isPresent root = true) :
    scan takes fs.disk root = .ok ((fs.filesUnder root).filter takes) := by
  rw [← regularFiles_filesUnder]
  exact scan_of_isPresent takes h

theorem scanEach_eq {roots : List Path} (h : ∀ root ∈ roots, fs.isPresent root = true) :
    scanEach (scan takes fs.disk) roots =
      .ok (roots.flatMap fun root => (fs.filesUnder root).filter takes) :=
  scanEach_of_ok fun root hroot => scan_eq (h root hroot)

theorem scanAll_eq {roots : List Path} (h : ∀ root ∈ roots, fs.isPresent root = true) :
    scanAll (scan takes fs.disk) roots =
      .ok (keepFirst (roots.flatMap fun root => (fs.filesUnder root).filter takes)) := by
  rw [scanAll_eq_map, scanEach_eq h]
  rfl

end

end BlankLines
