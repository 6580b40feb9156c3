import BlankLines.Files.Memory
import BlankLines.Proofs.Files.Steps
import BlankLines.Proofs.Files.Walk

/-!
# Proofs — Files — where paths lead

Following a path through a file system forgets how it is spelled.  What is left is a fold over the
pieces: a name is entered, `..` is taken back, all else is passed over.

* `names_of_fileAt?`: a path leads to the file that the fold over its pieces names.
* `same_of_sameFile`: two paths without `..` that start alike and lead to the same file have the
  same components.
* `exists_steps_of_mem_filesUnder`: every file below a path is met under the path's own steps and
  the names on the way down.
-/

namespace BlankLines

open BlankLines.Path (Step pieces stepsFrom stepOf? IsName)

/-! ### A fold over pieces -/

namespace FileSystem

/-- Where a piece of a path leads from a directory, whose names come last first. -/
def enter (dir : List String) (piece : List Char) : List String :=
  if piece = [] || piece = ['.'] then dir
  else if piece = ['.', '.'] then dir.tail
  else String.ofList piece :: dir

theorem foldl_enter_of_all_isEmpty {ps : List (List Char)} (h : ps.all List.isEmpty = true)
    (dir : List String) : ps.foldl enter dir = dir := by
  induction ps with
  | nil => rfl
  | cons piece rest ih =>
      rw [List.all_cons, Bool.and_eq_true, List.isEmpty_iff] at h
      rw [List.foldl_cons, h.1]
      exact ih h.2

theorem names_of_follow {root : Entry} {ps : List (List Char)} {dir : List String} {l : Location}
    (h : follow root dir ps = .ok l) :
    l.names = (ps.foldl enter dir).reverse ∧ l.entry = root.get? l.names := by
  induction ps generalizing dir with
  | nil =>
      cases h
      exact ⟨rfl, rfl⟩
  | cons piece rest ih =>
      rw [List.foldl_cons]
      simp only [follow] at h
      split at h
      next hskip => simpa [enter, hskip] using ih h
      next hskip =>
        split at h
        next hup => simpa [enter, hup] using ih h
        next hup =>
          have he : enter dir piece = String.ofList piece :: dir := by
            simp only [enter, hskip, hup]
            rfl
          rw [he]
          -- the last piece of all need not lead to a directory
          split at h
          next hall =>
            cases h
            exact ⟨by rw [foldl_enter_of_all_isEmpty hall], rfl⟩
          next =>
            split at h
            · cases h
            · cases h
            · exact ih h

/-- Pieces without `..` are entered one after the other. -/
theorem foldl_enter_of_not_mem {isFirst : Bool} {ps : List (List Char)}
    (h : .up ∉ stepsFrom isFirst ps) (dir : List String) :
    ps.foldl enter dir =
      (((stepsFrom isFirst ps).filterMap Step.name?).map String.ofList).reverse ++ dir := by
  induction ps generalizing isFirst dir with
  | nil => rfl
  | cons piece rest ih =>
      rw [stepsFrom, List.mem_append, not_or] at h
      rw [List.foldl_cons, stepsFrom, List.filterMap_append, ih h.2]
      by_cases h₁ : piece = []
      · simp [enter, stepOf?, h₁]
      · by_cases h₂ : piece = ['.']
        · cases isFirst <;> simp [enter, stepOf?, h₂, Step.name?]
        · by_cases h₃ : piece = ['.', '.']
          · exact absurd (by simp [stepOf?, h₃]) h.1
          · simp [enter, stepOf?, h₁, h₂, h₃, Step.name?]

theorem foldl_enter_pieces {p : Path} (h : .up ∉ p.steps) (dir : List String) :
    (pieces p.text.toList).foldl enter dir = (p.names.map String.ofList).reverse ++ dir := by
  rw [Path.steps_eq, List.mem_append, not_or] at h
  rw [foldl_enter_of_not_mem h.2, Path.names, Path.steps_eq, List.filterMap_append]
  split <;> rfl

/-- A path that is not absolute is followed from where its base leads. -/
theorem foldl_enter_join {base next : Path} (hn : ¬ next.isAbsolute = true) (dir : List String) :
    (pieces (base.join next).text.toList).foldl enter dir =
      (pieces next.text.toList).foldl enter ((pieces base.text.toList).foldl enter dir) := by
  by_cases hb : base.text.toList = []
  · have hj : base.join next = next := by simp [Path.join, hn, hb]
    rw [hj, hb]
    rfl
  · obtain ⟨ps, -, hps, hjoin⟩ := Path.exists_pieces_join hb
    rw [hjoin next hn, List.foldl_append]
    rcases hps with h | h
    · rw [h]
    · rw [h, List.foldl_append]
      rfl

/-! ### The file a path leads to -/

/-- The names, from the root on, of the file that a path leads to. -/
def fileAt? (fs : FileSystem) (p : Path) : Option (List String) :=
  match fs.locate p with
  | .ok ⟨names, some (.file _), false⟩ => some names
  | _                                  => none

/-- Two paths lead to one and the same file. -/
def SameFile (fs : FileSystem) (p q : Path) : Prop :=
  ∃ names, fs.fileAt? p = some names ∧ fs.fileAt? q = some names

instance decidableSameFile (fs : FileSystem) (p q : Path) : Decidable (fs.SameFile p q) :=
  decidable_of_iff (∃ names ∈ fs.fileAt? p, fs.fileAt? q = some names) (by simp [SameFile])

theorem names_of_locate {fs : FileSystem} {p : Path} {l : Location} (h : fs.locate p = .ok l) :
    l.names = ((pieces (fs.current.join p).text.toList).foldl enter []).reverse ∧
      l.entry = fs.root.get? l.names := by
  unfold locate at h
  split at h
  · cases h
  · split at h
    · cases h
    · exact names_of_follow h

theorem names_of_fileAt? {fs : FileSystem} {p : Path} {names : List String}
    (h : fs.fileAt? p = some names) :
    names = ((pieces (fs.current.join p).text.toList).foldl enter []).reverse := by
  unfold fileAt? at h
  split at h
  next hl =>
    cases h
    exact (names_of_locate hl).1
  next => cases h

/-- **The spelling of a file.**  Two paths without `..` that start alike and lead to the same file
have the same components. -/
theorem same_of_sameFile {fs : FileSystem} {p q : Path} (hp : .up ∉ p.steps) (hq : .up ∉ q.steps)
    (ha : p.anchor = q.anchor) (h : fs.SameFile p q) : p.Same q := by
  obtain ⟨names, hnp, hnq⟩ := h
  have hpq := (names_of_fileAt? hnp).symm.trans (names_of_fileAt? hnq)
  rw [List.reverse_inj] at hpq
  obtain ⟨hsp, hrp⟩ := Path.steps_eq_anchor_append hp
  obtain ⟨hsq, hrq⟩ := Path.steps_eq_anchor_append hq
  -- either both are followed from the root or both from the current directory
  have hnames : p.names.map String.ofList = q.names.map String.ofList := by
    by_cases hr : p.isAbsolute = true
    · have hr' : q.isAbsolute = true := hrq.1 (ha ▸ hrp.2 hr)
      rw [Path.join_of_isAbsolute hr, Path.join_of_isAbsolute hr', foldl_enter_pieces hp,
        foldl_enter_pieces hq] at hpq
      simpa using hpq
    · have hr' : ¬ q.isAbsolute = true := fun h' => hr (hrp.1 (ha ▸ hrq.2 h'))
      rw [foldl_enter_join hr, foldl_enter_join hr', foldl_enter_pieces hp,
        foldl_enter_pieces hq] at hpq
      simpa using hpq
  have hnames' : p.names = q.names := (List.map_inj_right fun _ _ => String.ofList_inj.1).1 hnames
  rw [Path.Same, hsp, hsq, ha, hnames']

end FileSystem

/-! ### The files below a path -/

namespace Entry

mutual

/-- Everything in an entry has a name that a file or a directory may have. -/
def WellNamed : Entry → Prop
  | .file _            => True
  | .directory entries => AllWellNamed entries

/-- Every entry of a directory is well named. -/
def AllWellNamed : List (String × Entry) → Prop
  | []            => True
  | entry :: rest => NamedWell entry ∧ AllWellNamed rest

/-- A named entry is well named. -/
def NamedWell : String × Entry → Prop
  | (name, entry) => IsName name.toList ∧ WellNamed entry

end

theorem namedWell_of_lookup {entries : List (String × Entry)} (h : AllWellNamed entries)
    {name : String} {e : Entry} (he : entries.lookup name = some e) : NamedWell (name, e) := by
  induction entries with
  | nil => cases he
  | cons entry rest ih =>
      obtain ⟨n, e'⟩ := entry
      rw [AllWellNamed] at h
      rw [List.lookup_cons] at he
      split at he
      next hn =>
        cases he
        rw [beq_iff_eq.1 hn]
        exact h.1
      next => exact ih h.2 he

theorem wellNamed_of_get? {names : List String} {e e' : Entry} (h : e.WellNamed)
    (he : e.get? names = some e') : e'.WellNamed := by
  induction names generalizing e with
  | nil =>
      cases he
      exact h
  | cons name rest ih =>
      cases e with
      | file content => cases he
      | directory entries =>
          rw [get?, Option.bind_eq_some_iff] at he
          obtain ⟨inner, hl, hi⟩ := he
          exact ih (namedWell_of_lookup h hl).2 hi

/-- Names that lead somewhere are such names. -/
theorem isName_of_get? {names : List String} {e e' : Entry} (h : e.WellNamed)
    (he : e.get? names = some e') : ∀ n ∈ names, IsName n.toList := by
  induction names generalizing e with
  | nil => exact nofun
  | cons name rest ih =>
      cases e with
      | file content => cases he
      | directory entries =>
          rw [get?, Option.bind_eq_some_iff] at he
          obtain ⟨inner, hl, hi⟩ := he
          obtain ⟨hname, hinner⟩ := namedWell_of_lookup h hl
          rw [List.forall_mem_cons]
          exact ⟨hname, ih hinner hi⟩

mutual

/-- The files of an entry are met under its path and the names that lead to them. -/
theorem exists_steps_of_mem_files : ∀ (e : Entry) (names : List String) (path : Path),
    e.WellNamed → ∀ x ∈ e.files names path,
      ∃ ns : List (List Char), x.2.steps = path.steps ++ ns.map .name
  | .file _, names, path, _, x, hx => by
      obtain rfl : x = (names, path) := by simpa [files] using hx
      exact ⟨[], by simp⟩
  | .directory entries, names, path, h, x, hx => by
      rw [files] at hx
      exact exists_steps_of_mem_filesOfAll entries names path h x hx

theorem exists_steps_of_mem_filesOfAll :
    ∀ (entries : List (String × Entry)) (names : List String) (path : Path),
      AllWellNamed entries → ∀ x ∈ filesOfAll names path entries,
        ∃ ns : List (List Char), x.2.steps = path.steps ++ ns.map .name
  | [], _, _, _, x, hx => by simp [filesOfAll] at hx
  | entry :: rest, names, path, h, x, hx => by
      rw [AllWellNamed] at h
      rw [filesOfAll, List.mem_append] at hx
      rcases hx with hx | hx
      · exact exists_steps_of_mem_filesOfNamed entry names path h.1 x hx
      · exact exists_steps_of_mem_filesOfAll rest names path h.2 x hx

theorem exists_steps_of_mem_filesOfNamed :
    ∀ (entry : String × Entry) (names : List String) (path : Path),
      NamedWell entry → ∀ x ∈ filesOfNamed names path entry,
        ∃ ns : List (List Char), x.2.steps = path.steps ++ ns.map .name
  | (name, e), names, path, h, x, hx => by
      rw [NamedWell] at h
      rw [filesOfNamed] at hx
      obtain ⟨ns, hns⟩ := exists_steps_of_mem_files e _ _ h.2 x hx
      refine ⟨name.toList :: ns, ?_⟩
      rw [hns, Path.steps_join_name path h.1]
      simp

end

end Entry

/-- A file below a path is met under the path's own steps and the names on the way down. -/
theorem FileSystem.exists_steps_of_mem_filesUnder {fs : FileSystem} (h : fs.root.WellNamed)
    {root p : Path} (hp : p ∈ fs.filesUnder root) :
    ∃ ns : List (List Char), p.steps = root.steps ++ ns.map .name := by
  unfold filesUnder at hp
  split at hp
  next e _ hl =>
    have he := (names_of_locate hl).2.symm
    simp only [Entry.walkFiles, List.mem_map, (Entry.perm_inOrder _).mem_iff] at hp
    obtain ⟨x, hx, rfl⟩ := hp
    exact Entry.exists_steps_of_mem_files e _ _ (Entry.wellNamed_of_get? h he) x hx
  next => cases hp

end BlankLines
