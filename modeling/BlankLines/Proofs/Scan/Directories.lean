import BlankLines.Proofs.Files.Descent
import BlankLines.Proofs.Files.Resolve
import BlankLines.Proofs.Scan.Duplicates

/-!
# Proofs — Scan — all that is below a root

A scan of a root finds the regular files that a walk comes to and the filter takes.  It is stated
here of every filter, and of every disk that answers for a file system and walks by going down in
place; faults on the way are passed over.

* `Disk.Walks`: such a disk; `FileSystem.walks_disk`: a file system in memory is one.
* `scan_exact`: a scan finds every file below its root that the filter takes, each once and in
  order, and fails exactly if the root is missing.
-/

namespace BlankLines

open BlankLines.Path (IsName)

/-! ### Walking -/

namespace FileSystem

/-- What a path leads to.  A path with a slash at its end leads to no file. -/
def entryAt? (fs : FileSystem) (p : Path) : Option Entry :=
  match fs.locate p with
  | .ok ⟨_, some (.file content), slash⟩ => if slash then none else some (.file content)
  | .ok ⟨_, some (.directory es), _⟩     => some (.directory es)
  | _                                    => none

theorem isPresent_eq_isSome (fs : FileSystem) (p : Path) :
    fs.isPresent p = (fs.entryAt? p).isSome := by
  rw [isPresent, entryAt?]
  rcases fs.locate p with fault | ⟨_, _ | _ | _, slash⟩
  · rfl
  · rfl
  · cases slash <;> rfl
  · rfl

theorem walk_eq_of_entryAt? {fs : FileSystem} {p : Path} {e : Entry}
    (h : fs.entryAt? p = some e) : fs.walk p = e.walk p := by
  rw [entryAt?] at h
  rw [walk]
  split at h
  next hl =>
    split at h
    · cases h
    · cases h
      rw [hl]
  next hl =>
    cases h
    rw [hl]
  · cases h

theorem exists_get?_of_entryAt? {fs : FileSystem} {p : Path} {e : Entry}
    (h : fs.entryAt? p = some e) : ∃ names, fs.root.get? names = some e := by
  rw [entryAt?] at h
  split at h
  next hl =>
    split at h
    · cases h
    · cases h
      exact ⟨_, (names_of_locate hl).2.symm⟩
  next hl =>
    cases h
    exact ⟨_, (names_of_locate hl).2.symm⟩
  · cases h

end FileSystem

/-- A disk that holds a file system and walks by going down in place: it comes to everything that
is below a path, whatever faults it comes to in between. -/
structure Disk.Walks (disk : Disk Id) (fs : FileSystem) : Prop where
  isPresent : ∀ p, disk.isPresent p = (fs.entryAt? p).isSome
  filesUnder : ∀ p e, fs.entryAt? p = some e →
    (disk.filesUnder p).filterMap Except.toOption = e.descend.map (Entry.metAt p)

/-- A file system in memory, which sorts everything at once, walks as if it went down. -/
theorem FileSystem.walks_disk {fs : FileSystem} (h : fs.root.Distinct) : fs.disk.Walks fs where
  isPresent := fs.isPresent_eq_isSome
  filesUnder p e he := by
    obtain ⟨names, hnames⟩ := exists_get?_of_entryAt? he
    rw [filterMap_filesUnder, walk_eq_of_entryAt? he]
    exact Entry.walk_eq_descend (Entry.distinct_of_get? h hnames) p

/-! ### Paths below a root -/

theorem Path.steps_below {ns : List String} (h : ∀ n ∈ ns, IsName n.toList) (p : Path) :
    (p.below ns).steps = p.steps ++ ns.map fun n => .name n.toList := by
  induction ns generalizing p with
  | nil => simp [below]
  | cons n ns ih =>
      rw [List.forall_mem_cons] at h
      have hstep := ih h.2 (p.join ⟨n⟩)
      rw [steps_join_name p h.1, List.append_assoc] at hstep
      exact hstep

/-- Different names below a path make different paths. -/
theorem Path.not_same_below {ns ms : List String} (hns : ∀ n ∈ ns, IsName n.toList)
    (hms : ∀ n ∈ ms, IsName n.toList) (h : ns ≠ ms) (p : Path) :
    ¬ (p.below ns).Same (p.below ms) := by
  intro hsame
  rw [Same, steps_below hns, steps_below hms, List.append_cancel_left_eq] at hsame
  refine h ((List.map_inj_right fun n m hnm => ?_).1 hsame)
  exact String.toList_inj.1 (Step.name.inj hnm)

/-! ### The scan of a root -/

section
variable {disk : Disk Id} {fs : FileSystem}

theorem regularFiles_of_walks (hd : disk.Walks fs) {root : Path} {e : Entry}
    (he : fs.entryAt? root = some e) :
    regularFiles (disk.filesUnder root) = e.fileNames.map root.below := by
  rw [regularFiles, hd.filesUnder root e he, List.filter_map, List.map_map, Entry.fileNames,
    List.map_map]
  rfl

theorem scan_eq_of_walks (hd : disk.Walks fs) (takes : Path → Bool) (root : Path) :
    scan takes disk root =
      match fs.entryAt? root with
      | some e => .ok ((e.fileNames.filter fun ns => takes (root.below ns)).map root.below)
      | none   => .error (.missingRoot root) := by
  have hpresent := hd.isPresent root
  cases he : fs.entryAt? root with
  | none => exact scan_of_isPresent_eq_false takes (by rw [hpresent, he]; rfl)
  | some e =>
      rw [scan_of_isPresent takes (by rw [hpresent, he]; rfl), regularFiles_of_walks hd he,
        List.filter_map]
      rfl

/-- **A scan is complete, without duplicates and in order.**  From a root that leads somewhere it
finds the files that names lead to from there and whose paths the filter takes, in strictly
increasing order of their names, and no two of their paths have the same components.  It fails
exactly if the root leads nowhere, and says so. -/
theorem scan_exact (hd : disk.Walks fs) (hn : fs.root.WellNamed) (hu : fs.root.Distinct)
    (takes : Path → Bool) (root : Path) :
    (∀ e, fs.entryAt? root = some e → ∃ found : List (List String),
      scan takes disk root = .ok (found.map root.below) ∧
      (∀ names, names ∈ found ↔
        (∃ content, e.get? names = some (.file content)) ∧ takes (root.below names) = true) ∧
      found.Pairwise Entry.NamesBefore ∧
      (found.map root.below).Pairwise fun p q => ¬ p.Same q) ∧
    (∀ error, scan takes disk root = .error error ↔
      fs.entryAt? root = none ∧ error = .missingRoot root) ∧
    (Error.missingRoot root).kind = "IO" ∧
    (Error.missingRoot root).message = "IO error: path not found: " ++ root.text := by
  refine ⟨fun e he => ?_, fun error => ?_, rfl, rfl⟩
  · obtain ⟨way, hway⟩ := fs.exists_get?_of_entryAt? he
    have hdistinct := Entry.distinct_of_get? hu hway
    have hwell := Entry.wellNamed_of_get? hn hway
    have hmem : ∀ names, names ∈ e.fileNames.filter (fun ns => takes (root.below ns)) ↔
        (∃ content, e.get? names = some (.file content)) ∧
          takes (root.below names) = true := fun names => by
      rw [List.mem_filter, Entry.mem_fileNames_iff hdistinct]
    have horder := (Entry.pairwise_fileNames hdistinct).filter fun ns => takes (root.below ns)
    refine ⟨_, by rw [scan_eq_of_walks hd, he], hmem, horder, ?_⟩
    have hnames : ∀ names ∈ e.fileNames.filter (fun ns => takes (root.below ns)),
        ∀ n ∈ names, IsName n.toList := fun names h => by
      obtain ⟨⟨content, hcontent⟩, -⟩ := (hmem names).1 h
      exact Entry.isName_of_get? hwell hcontent
    rw [List.pairwise_map]
    exact horder.imp_of_mem fun {ns ms} hns hms h =>
      Path.not_same_below (hnames ns hns) (hnames ms hms) h.ne root
  · rw [scan_eq_error_iff, hd.isPresent root, Option.isSome_eq_false_iff,
      Option.isNone_iff_eq_none]

end

/-! ### A directory beside a file of its name -/

/-- A current directory in which `a` stands beside `a.json`, in no order. -/
def siblingFiles : FileSystem where
  root := .directory [("w", .directory [("b.json", .file .empty), ("a.json", .file .empty),
    ("a", .directory [("n.txt", .file .empty), ("b.json", .file .empty)])])]
  current := ⟨"/w"⟩

theorem siblingFiles_wellNamed : siblingFiles.root.WellNamed := by
  simp only [siblingFiles, Entry.WellNamed, Entry.AllWellNamed, Entry.NamedWell, and_true]
  decide +kernel

theorem siblingFiles_distinct : siblingFiles.root.Distinct := by
  simp only [siblingFiles, Entry.Distinct, Entry.AllDistinct, Entry.NamedDistinct, and_true]
  decide +kernel

/-- A disk each of whose walks comes to a fault first. -/
def faultyDisk (fs : FileSystem) : Disk Id :=
  { fs.disk with filesUnder := fun p => .error (.other "Permission denied") :: fs.disk.filesUnder p }

theorem faultyDisk_walks {fs : FileSystem} (h : fs.root.Distinct) : (faultyDisk fs).Walks fs where
  isPresent := (FileSystem.walks_disk h).isPresent
  filesUnder := (FileSystem.walks_disk h).filesUnder

/-- What is in `a` comes before `a.json`, and what is no `json` file is left out; with another
filter it is not, and neither filter takes a directory.  A path that leads nowhere is refused. -/
theorem scan_exact_siblingFiles :
    (faultyDisk siblingFiles).Walks siblingFiles ∧ siblingFiles.root.WellNamed ∧
      siblingFiles.root.Distinct ∧
      (∃ found : List (List String),
        scan jsonFilter.includes (faultyDisk siblingFiles) ⟨"."⟩ =
          .ok (found.map (Path.below ⟨"."⟩)) ∧
        (∀ names ∈ [["a", "b.json"], ["a.json"], ["b.json"]], names ∈ found) ∧
        ["a", "n.txt"] ∉ found ∧ found.Pairwise Entry.NamesBefore) ∧
      (∃ found : List (List String),
        scan (fun _ => true) (faultyDisk siblingFiles) ⟨"."⟩ =
          .ok (found.map (Path.below ⟨"."⟩)) ∧
        ["a", "n.txt"] ∈ found ∧ ["a"] ∉ found) ∧
      scan jsonFilter.includes (faultyDisk siblingFiles) ⟨"x"⟩ = .error (.missingRoot ⟨"x"⟩) := by
  have hd := faultyDisk_walks siblingFiles_distinct
  have hexact := scan_exact hd siblingFiles_wellNamed siblingFiles_distinct
  refine ⟨hd, siblingFiles_wellNamed, siblingFiles_distinct, ?_, ?_, ?_⟩
  · obtain ⟨found, hfound, hmem, horder, -⟩ := (hexact jsonFilter.includes ⟨"."⟩).1 _ rfl
    refine ⟨found, hfound, ?_, fun h => ?_, horder⟩
    · simp only [List.forall_mem_cons, List.not_mem_nil, false_imp_iff, implies_true, and_true]
      exact ⟨(hmem _).2 ⟨⟨.empty, rfl⟩, by decide +kernel⟩,
        (hmem _).2 ⟨⟨.empty, rfl⟩, by decide +kernel⟩,
        (hmem _).2 ⟨⟨.empty, rfl⟩, by decide +kernel⟩⟩
    · have htaken := ((hmem _).1 h).2
      revert htaken
      decide +kernel
  · obtain ⟨found, hfound, hmem, -⟩ := (hexact (fun _ => true) ⟨"."⟩).1 _ rfl
    refine ⟨found, hfound, (hmem _).2 ⟨⟨.empty, rfl⟩, rfl⟩, fun h => ?_⟩
    obtain ⟨⟨content, hcontent⟩, -⟩ := (hmem _).1 h
    cases hcontent
  · exact ((hexact jsonFilter.includes ⟨"x"⟩).2.1 _).2 ⟨rfl, rfl⟩

end BlankLines
