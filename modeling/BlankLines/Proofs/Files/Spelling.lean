import BlankLines.Proofs.Files.Parents
import BlankLines.Proofs.Files.Resolve
import BlankLines.Proofs.Results

/-!
# Proofs — Files — two spellings of one path

A path may be spelled with doubled slashes and with a `.` here and there.  What ends in a name or a
`..` leads to the same place under each of its spellings, and so does what lies beside it; a slash
at the end would make a difference, since only a directory may be called so.

* `FileSystem.locate_eq_of_same`, `FileSystem.readText_eq_of_same`: the place a path leads to.
* `FileSystem.readText_beside_eq`: a path as seen from the directory that holds a file.
* `FileSystem.isSolid_of_mem_filesUnder`: a walk meets no file under a path with a slash at its end.
-/

namespace BlankLines

open BlankLines.Path (pieces IsName core counts Solid)

namespace FileSystem

/-! ### Following -/

/-- Where a piece that is not the last leads from a directory. -/
def advance (root : Entry) (dir : List String) (piece : List Char) : Except IoFault (List String) :=
  if piece = [] || piece = ['.'] then .ok dir
  else if piece = ['.', '.'] then .ok dir.tail
  else
    match root.get? (String.ofList piece :: dir).reverse with
    | none                => .error .notFound
    | some (.file _)      => .error .notDirectory
    | some (.directory _) => .ok (String.ofList piece :: dir)

theorem follow_append (root : Entry) {rest : List (List Char)}
    (hrest : rest.all List.isEmpty = false) (ps : List (List Char)) (dir : List String) :
    follow root dir (ps ++ rest) =
      (ps.foldlM (advance root) dir).bind fun dir => follow root dir rest := by
  induction ps generalizing dir with
  | nil => rfl
  | cons piece ps ih =>
      have hall : (ps ++ rest).all List.isEmpty = false := by
        rw [List.all_append, hrest, Bool.and_false]
      rw [List.cons_append, follow, List.foldlM_cons]
      simp only [ih, hall, advance]
      split
      · rfl
      split
      · rfl
      simp only [Bool.false_eq_true, if_false]
      cases root.get? (String.ofList piece :: dir).reverse with
      | none => rfl
      | some entry => cases entry <;> rfl

theorem foldlM_advance_core (root : Entry) (ps : List (List Char)) (dir : List String) :
    (core ps).foldlM (advance root) dir = ps.foldlM (advance root) dir := by
  induction ps generalizing dir with
  | nil => rfl
  | cons piece ps ih =>
      rw [core, List.filter_cons]
      split
      next =>
        rw [List.foldlM_cons, List.foldlM_cons]
        exact bind_congr fun dir => ih dir
      next hcounts =>
        have hskip : (piece = [] || piece = ['.']) = true := by
          simpa [counts, Decidable.or_iff_not_imp_left] using hcounts
        rw [List.foldlM_cons, advance, if_pos hskip]
        exact ih dir

/-- Before a piece that leads on, those that do not make no difference. -/
theorem follow_core (root : Entry) {ps : List (List Char)} (h : Solid ps) (rest : List (List Char))
    (dir : List String) : follow root dir (core ps ++ rest) = follow root dir (ps ++ rest) := by
  obtain ⟨init, last, rfl, hlast⟩ := h
  have hcore : core (init ++ [last]) = core init ++ [last] := by
    simp [core, hlast]
  have hne := Path.all_isEmpty_of_counts hlast rest
  rw [hcore, List.append_assoc, List.append_assoc, List.singleton_append, follow_append root hne,
    follow_append root hne, foldlM_advance_core]

/-! ### Locating -/

theorem exists_pieces_current (fs : FileSystem) : ∃ before : List (List Char),
    ∀ p : Path, ¬ p.isAbsolute = true →
      pieces (fs.current.join p).text.toList = before ++ pieces p.text.toList := by
  by_cases hc : fs.current.text.toList = []
  · exact ⟨[], fun p hp => by simp [Path.join, hp, hc]⟩
  · obtain ⟨before, -, -, hjoin⟩ := Path.exists_pieces_join hc
    exact ⟨before, hjoin⟩

theorem nul_mem_iff {p : Path} {ps rest : List (List Char)}
    (hp : pieces p.text.toList = ps ++ rest) :
    '\x00' ∈ p.text.toList ↔ ∃ piece ∈ core ps ++ rest, '\x00' ∈ piece := by
  have hcounts : ∀ piece : List Char, '\x00' ∈ piece → counts piece = true := by
    rintro piece hnul
    simp only [counts, Bool.and_eq_true, ne_eq, decide_not, Bool.not_eq_true',
      decide_eq_false_iff_not]
    constructor <;> rintro rfl <;> simp at hnul
  rw [Path.mem_iff_exists_piece (by decide), hp]
  constructor
  · rintro ⟨piece, hmem, hnul⟩
    refine ⟨piece, ?_, hnul⟩
    exact (List.mem_append.1 hmem).elim
      (fun h => List.mem_append_left _ (List.mem_filter.2 ⟨h, hcounts piece hnul⟩))
      (List.mem_append_right _)
  · rintro ⟨piece, hmem, hnul⟩
    refine ⟨piece, ?_, hnul⟩
    exact (List.mem_append.1 hmem).elim
      (fun h => List.mem_append_left _ (List.mem_filter.1 h).1) (List.mem_append_right _)

/-- A path with a piece that leads on is followed along the pieces that do. -/
theorem locate_eq {fs : FileSystem} {before : List (List Char)}
    (hbefore : ∀ p : Path, ¬ p.isAbsolute = true →
      pieces (fs.current.join p).text.toList = before ++ pieces p.text.toList)
    {p : Path} {ps rest : List (List Char)} (hp : pieces p.text.toList = ps ++ rest)
    (hps : Solid ps) :
    fs.locate p =
      if ∃ piece ∈ core ps ++ rest, '\x00' ∈ piece then .error .nulInPath
      else follow fs.root [] (core (if p.isAbsolute then [] else before) ++ (core ps ++ rest)) := by
  have hne : ¬ p.text.isEmpty = true := fun h =>
    Path.ne_nil_of_pieces_eq hp hps (by rw [String.isEmpty_iff.1 h]; rfl)
  have hfollow : follow fs.root [] (pieces (fs.current.join p).text.toList) =
      follow fs.root [] (core (if p.isAbsolute then [] else before) ++ (core ps ++ rest)) := by
    rw [← List.append_assoc, ← Path.core_append, follow_core _ (hps.append _), List.append_assoc,
      ← hp]
    split
    next ha => rw [Path.join_of_isAbsolute ha, List.nil_append]
    next ha => rw [hbefore p ha]
  rw [locate, hfollow, if_neg hne]
  simp only [List.contains_iff_mem, nul_mem_iff hp]

/-- Where a path leads is settled by the pieces that lead on, whether it is absolute, and what
follows the last of these pieces. -/
theorem locate_congr {fs : FileSystem} {p q : Path} {ps qs rest : List (List Char)}
    (hp : pieces p.text.toList = ps ++ rest) (hq : pieces q.text.toList = qs ++ rest)
    (hps : Solid ps) (hqs : Solid qs) (hcore : core ps = core qs)
    (ha : p.isAbsolute = true ↔ q.isAbsolute = true) : fs.locate p = fs.locate q := by
  obtain ⟨before, hbefore⟩ := fs.exists_pieces_current
  rw [locate_eq hbefore hp hps, locate_eq hbefore hq hqs, hcore]
  simp only [ha]

theorem locate_eq_of_same {fs : FileSystem} {p q : Path} (h : p.Same q) (hp : p.IsSolid)
    (hq : q.IsSolid) : fs.locate p = fs.locate q :=
  locate_congr (List.append_nil _).symm (List.append_nil _).symm hp hq h.core_eq h.isAbsolute_iff

theorem readText_congr {fs : FileSystem} {p q : Path} (h : fs.locate p = fs.locate q) :
    fs.readText p = fs.readText q := by
  rw [readText, readText, h]

/-- **A file is read alike under each spelling** that ends in a name. -/
theorem readText_eq_of_same {fs : FileSystem} {p q : Path} (h : p.Same q) (hp : p.IsSolid)
    (hq : q.IsSolid) : fs.readText p = fs.readText q :=
  readText_congr (locate_eq_of_same h hp hq)

theorem pieces_join_of_isSolid {p next : Path} (hp : p.IsSolid) (hn : ¬ next.isAbsolute = true) :
    pieces (p.join next).text.toList = pieces p.text.toList ++ pieces next.text.toList := by
  have hne := Path.ne_nil_of_pieces_eq (List.append_nil _).symm hp
  obtain ⟨ps, -, hps | hps, hjoin⟩ := Path.exists_pieces_join hne
  · rw [hjoin next hn, hps]
  · -- a path that ends in a name has no slash at its end
    obtain ⟨init, last, hlast, hcounts⟩ := hp
    obtain ⟨-, hend⟩ := List.append_inj' (hps.symm.trans hlast) rfl
    rw [← List.singleton_inj.1 hend] at hcounts
    cases hcounts

/-- A path that is empty, a `.` or the root is no spelling of one that ends in a name. -/
theorem not_same_of_isSolid {p q : Path} (hp : p.IsSolid)
    (hq : q = ⟨""⟩ ∨ q = ⟨"."⟩ ∨ q = ⟨"/"⟩) : ¬ p.Same q := by
  intro h
  obtain ⟨init, last, hlast, hcounts⟩ := hp
  have hmem : last ∈ core (pieces p.text.toList) := by simp [hlast, core, hcounts]
  rw [h.core_eq] at hmem
  rcases hq with rfl | rfl | rfl <;> simp [pieces, core, counts] at hmem

/-- **What lies beside a file is read alike** as seen from each of its spellings. -/
theorem readText_beside_eq {fs : FileSystem} {p q : Path} (h : p.Same q) (hp : p.IsSolid)
    (hq : q.IsSolid) (next : Path) :
    fs.readText ((p.parent?.getD ⟨"."⟩).join next) =
      fs.readText ((q.parent?.getD ⟨"."⟩).join next) := by
  obtain ⟨p', hp', hsteps, hspecial⟩ := hp.exists_parent
  obtain ⟨q', hq', hsteps', hspecial'⟩ := hq.exists_parent
  have hsame : p'.Same q' := by
    rw [Path.Same, hsteps, hsteps', h]
  rw [hp', hq', Option.getD_some, Option.getD_some]
  by_cases hn : next.isAbsolute = true
  · rw [Path.join_of_isAbsolute hn, Path.join_of_isAbsolute hn]
  rcases hspecial with hsolid | hspecial <;> rcases hspecial' with hsolid' | hspecial'
  · refine readText_congr (locate_congr (pieces_join_of_isSolid hsolid hn)
      (pieces_join_of_isSolid hsolid' hn) hsolid hsolid' hsame.core_eq ?_)
    rw [Path.isAbsolute_join (Path.ne_nil_of_pieces_eq (List.append_nil _).symm hsolid) hn,
      Path.isAbsolute_join (Path.ne_nil_of_pieces_eq (List.append_nil _).symm hsolid') hn,
      hsame.isAbsolute_iff]
  · exact absurd hsame (not_same_of_isSolid hsolid hspecial')
  · exact absurd hsame.symm (not_same_of_isSolid hsolid' hspecial)
  · have heq : p' = q' := by
      rcases hspecial with rfl | rfl | rfl <;> rcases hspecial' with rfl | rfl | rfl
      all_goals first | rfl | exact absurd hsame (by decide +kernel)
    rw [heq]

end FileSystem

/-! ### Paths that a walk meets -/

namespace Entry

mutual

/-- A walk of a directory meets its files under paths that end in a name. -/
theorem isSolid_of_mem_files : ∀ (e : Entry) (names : List String) (path : Path), e.WellNamed →
    ∀ x ∈ e.files names path, (∃ content, e = .file content ∧ x.2 = path) ∨ x.2.IsSolid
  | .file content, names, path, _, x, hx => by
      obtain rfl : x = (names, path) := by simpa [files] using hx
      exact .inl ⟨content, rfl, rfl⟩
  | .directory entries, names, path, h, x, hx => by
      rw [files] at hx
      exact .inr (isSolid_of_mem_filesOfAll entries names path h x hx)

theorem isSolid_of_mem_filesOfAll :
    ∀ (entries : List (String × Entry)) (names : List String) (path : Path),
      AllWellNamed entries → ∀ x ∈ filesOfAll names path entries, x.2.IsSolid
  | [], _, _, _, x, hx => by simp [filesOfAll] at hx
  | entry :: rest, names, path, h, x, hx => by
      rw [AllWellNamed] at h
      rw [filesOfAll, List.mem_append] at hx
      rcases hx with hx | hx
      · exact isSolid_of_mem_filesOfNamed entry names path h.1 x hx
      · exact isSolid_of_mem_filesOfAll rest names path h.2 x hx

theorem isSolid_of_mem_filesOfNamed :
    ∀ (entry : String × Entry) (names : List String) (path : Path),
      NamedWell entry → ∀ x ∈ filesOfNamed names path entry, x.2.IsSolid
  | (name, e), names, path, h, x, hx => by
      rw [NamedWell] at h
      rw [filesOfNamed] at hx
      rcases isSolid_of_mem_files e _ _ h.2 x hx with ⟨_, -, hx⟩ | hx
      · rw [hx]
        exact path.isSolid_join_name h.1
      · exact hx

end

end Entry

namespace FileSystem

theorem foldl_enter_of_core_eq_nil {ps : List (List Char)} (h : core ps = []) (dir : List String) :
    ps.foldl enter dir = dir := by
  have hskip : ∀ piece ∈ ps, ∀ dir, enter dir piece = dir := by
    intro piece hpiece dir
    have hcounts : ¬ counts piece = true := List.filter_eq_nil_iff.1 h piece hpiece
    rw [enter, if_pos (by simpa [counts, Decidable.or_iff_not_imp_left] using hcounts)]
  clear h
  induction ps with
  | nil => rfl
  | cons piece ps ih =>
      rw [List.forall_mem_cons] at hskip
      rw [List.foldl_cons, hskip.1, ih hskip.2]

/-- What follows a name that is taken for a file is nothing. -/
theorem eq_nil_of_follow {root : Entry} {dir names : List String} {name : List Char}
    {after : List (List Char)} {content : ByteArray} (hname : counts name = true)
    (hup : name ≠ ['.', '.']) (hafter : core after = [])
    (h : follow root dir (name :: after) = .ok ⟨names, some (.file content), false⟩) :
    after = [] := by
  simp only [counts, Bool.and_eq_true, decide_eq_true_eq] at hname
  simp only [follow, hname, hup, Bool.or_eq_true, decide_eq_true_eq, or_self, if_false] at h
  split at h
  next hall =>
    simpa using congrArg Location.slash (Except.ok.inj h)
  next =>
    -- only a directory may be followed by more, and all that follows stays there
    split at h
    · cases h
    · cases h
    next hentry =>
      obtain ⟨hnames, he⟩ := names_of_follow h
      rw [foldl_enter_of_core_eq_nil hafter] at hnames
      simp only at hnames he
      rw [hnames, hentry] at he
      cases he

/-- A path that leads to a file, and whose last component is a name, ends in that name. -/
theorem isSolid_of_locate {fs : FileSystem} {p : Path} {names : List String} {content : ByteArray}
    (h : fs.locate p = .ok ⟨names, some (.file content), false⟩) {n : List Char}
    (hn : p.steps.getLast? = some (.name n)) : p.IsSolid := by
  obtain ⟨steps, hsteps⟩ := List.getLast?_eq_some_iff.1 hn
  have hcore : core (pieces p.text.toList) = steps.filterMap Path.Step.piece? ++ [n] := by
    rw [Path.core_pieces_eq, hsteps, List.filterMap_append]
    rfl
  have hne : core (pieces p.text.toList) ≠ [] := by simp [hcore]
  obtain ⟨before, last, after, hp, hlast, hafter⟩ := Path.exists_last_of_core_ne_nil hne
  have hup : last ≠ ['.', '.'] := by
    rw [hp, Path.core_append, ← List.singleton_append, Path.core_append, hafter] at hcore
    have hone : core [last] = [last] := List.filter_cons_of_pos hlast
    rw [hone, List.append_nil] at hcore
    rw [List.singleton_inj.1 (List.append_inj' hcore rfl).2]
    exact Path.ne_up_of_name_mem (p := p) (by simp [hsteps])
  obtain ⟨base, hbase⟩ : ∃ base, pieces (fs.current.join p).text.toList =
      base ++ pieces p.text.toList := by
    by_cases ha : p.isAbsolute = true
    · exact ⟨[], by rw [Path.join_of_isAbsolute ha]; rfl⟩
    · obtain ⟨base, hbase⟩ := fs.exists_pieces_current
      exact ⟨base, hbase p ha⟩
  have hfollow : follow fs.root [] (base ++ before ++ last :: after) =
      .ok ⟨names, some (.file content), false⟩ := by
    rw [List.append_assoc, ← hp, ← hbase]
    unfold locate at h
    split at h
    · cases h
    split at h
    · cases h
    · exact h
  rw [follow_append _ (Path.all_isEmpty_of_counts hlast after)] at hfollow
  obtain ⟨dir, -, hfollow⟩ := bind_eq_ok_iff.1 hfollow
  obtain rfl := eq_nil_of_follow hlast hup hafter hfollow
  exact ⟨before, last, hp, hlast⟩

/-- A walk meets files under paths that end in a name, as far as their last component is one. -/
theorem isSolid_of_mem_filesUnder {fs : FileSystem} (hw : fs.root.WellNamed) {root p : Path}
    (hroot : fs.isPresent root = true) (hp : p ∈ fs.filesUnder root) {n : List Char}
    (hn : p.steps.getLast? = some (.name n)) : p.IsSolid := by
  unfold isPresent at hroot
  unfold filesUnder at hp
  split at hp
  next names e slash hl =>
    simp only [Entry.walkFiles, List.mem_map, (Entry.perm_inOrder _).mem_iff] at hp
    obtain ⟨x, hx, rfl⟩ := hp
    have he := Entry.wellNamed_of_get? hw (names_of_locate hl).2.symm
    rcases Entry.isSolid_of_mem_files e [] root he x hx with ⟨content, rfl, hsame⟩ | hsolid
    · -- the root itself is met if it is a file, and then it has no slash at its end
      rw [hsame] at hn ⊢
      rw [hl] at hroot
      obtain rfl : slash = false := by simpa using hroot
      exact isSolid_of_locate hl hn
    · exact hsolid
  next => cases hp

end FileSystem

end BlankLines
