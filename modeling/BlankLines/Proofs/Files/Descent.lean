import Mathlib.Data.List.Perm.Basic
import BlankLines.Proofs.Files.Changes
import BlankLines.Proofs.Files.Walk
import BlankLines.Proofs.Text.Bytes

/-!
# Proofs — Files — a walk goes down in place

A walk takes the entries of a directory by the bytes of their names, and goes down into each
directory where it stands.  `a.json` sorts before `a/b.json` as a text, but the names `a` and
`a.json` are compared alone, so the walk is done with `a` before it comes to `a.json`.

* `descend`: the names that lead to what is in an entry, as a walk comes to it.
* `mem_descend_iff`, `pairwise_descend`: it comes to everything there is and to nothing else, in
  strictly increasing order; `fileNames` are the names that lead to files.
* `walk_eq_descend`: sorting everything at once comes to the same.
-/

namespace BlankLines.Entry

/-! ### Directories whose entries have different names -/

mutual

/-- No directory has two entries of one name. -/
def Distinct : Entry → Prop
  | .file _            => True
  | .directory entries => (entries.map Prod.fst).Nodup ∧ AllDistinct entries

/-- The same of the entries of a directory. -/
def AllDistinct : List (String × Entry) → Prop
  | []            => True
  | entry :: rest => NamedDistinct entry ∧ AllDistinct rest

/-- The same of a named entry. -/
def NamedDistinct : String × Entry → Prop
  | (_, e) => Distinct e

end

theorem allDistinct_iff {entries : List (String × Entry)} :
    AllDistinct entries ↔ ∀ x ∈ entries, x.2.Distinct := by
  induction entries with
  | nil => simp [AllDistinct]
  | cons entry rest ih => rw [AllDistinct, ih, List.forall_mem_cons, NamedDistinct]

theorem distinct_directory_iff {entries : List (String × Entry)} :
    (directory entries).Distinct ↔
      (entries.map Prod.fst).Nodup ∧ ∀ x ∈ entries, x.2.Distinct := by
  rw [Distinct, allDistinct_iff]

/-- Among different names, the entry found first under a name is the only one. -/
theorem lookup_eq_some_iff {entries : List (String × Entry)} (h : (entries.map Prod.fst).Nodup)
    {name : String} {e : Entry} : entries.lookup name = some e ↔ (name, e) ∈ entries := by
  induction entries with
  | nil => simp
  | cons entry rest ih =>
      obtain ⟨n, e'⟩ := entry
      obtain ⟨hn, hrest⟩ := List.nodup_cons.1 h
      rw [lookup_cons_eq, List.mem_cons, Prod.mk.injEq]
      split
      next heq =>
        subst heq
        have hmem : (name, e) ∉ rest := fun hmem => hn (List.mem_map.2 ⟨_, hmem, rfl⟩)
        simp [hmem, eq_comm]
      next hne => simp [hne, ih hrest]

theorem distinct_of_get? {names : List String} {e e' : Entry} (h : e.Distinct)
    (he : e.get? names = some e') : e'.Distinct := by
  induction names generalizing e with
  | nil =>
      cases he
      exact h
  | cons name rest ih =>
      obtain ⟨entries, inner, rfl, hlookup, hinner⟩ := get?_cons_eq_some.1 he
      obtain ⟨hnames, hall⟩ := distinct_directory_iff.1 h
      exact ih (hall _ ((lookup_eq_some_iff hnames).1 hlookup)) hinner

/-! ### Going down -/

/-- What a walk takes an entry for. -/
def kind : Entry → FileKind
  | .file _      => .regular
  | .directory _ => .directory

mutual

/-- The names that lead to an entry and to what is below it, with what is there, in the order in
which a walk comes to it. -/
def descend : Entry → List (List String × FileKind)
  | .file _            => [([], .regular)]
  | .directory entries =>
    ([], .directory) ::
      ((descendEach entries).mergeSort fun x y => !Text.bytesBefore y.1 x.1).flatMap
        fun x => x.2.map fun y => (x.1 :: y.1, y.2)

/-- The entries of a directory, each with what the names lead to that lead on from it. -/
def descendEach :
    List (String × Entry) → List (String × List (List String × FileKind))
  | []            => []
  | entry :: rest => descendNamed entry :: descendEach rest

/-- A named entry with what the names lead to that lead on from it. -/
def descendNamed : String × Entry → String × List (List String × FileKind)
  | (name, e) => (name, descend e)

end

theorem descendEach_eq_map (entries : List (String × Entry)) :
    descendEach entries = entries.map fun x => (x.1, x.2.descend) := by
  induction entries with
  | nil => rfl
  | cons entry rest ih => rw [descendEach, ih, List.map_cons, descendNamed]

/-- The entries of a directory by the bytes of their names. -/
def sortedEntries (entries : List (String × Entry)) : List (String × Entry) :=
  entries.mergeSort fun x y => !Text.bytesBefore y.1 x.1

/-- What is below an entry of a directory, as seen from the directory. -/
def descendFrom (x : String × Entry) : List (List String × FileKind) :=
  x.2.descend.map fun y => (x.1 :: y.1, y.2)

/-- **Going down in place.**  A walk comes to a directory and then to what is in it, one entry after
the other in the order of their names. -/
theorem descend_directory (entries : List (String × Entry)) :
    (directory entries).descend =
      ([], .directory) :: (sortedEntries entries).flatMap descendFrom := by
  have hsort : (descendEach entries).mergeSort (fun x y => !Text.bytesBefore y.1 x.1) =
      (sortedEntries entries).map fun x => (x.1, x.2.descend) := by
    rw [descendEach_eq_map, sortedEntries]
    symm
    exact List.map_mergeSort fun _ _ _ _ => rfl
  rw [descend, hsort, List.flatMap_map]
  rfl

theorem perm_sortedEntries (entries : List (String × Entry)) :
    (sortedEntries entries).Perm entries :=
  List.mergeSort_perm ..

theorem pairwise_sortedEntries {entries : List (String × Entry)}
    (h : (entries.map Prod.fst).Nodup) :
    (sortedEntries entries).Pairwise fun x y => Text.bytesBefore x.1 y.1 = true := by
  have hsorted : (sortedEntries entries).Pairwise
      fun x y => (!Text.bytesBefore y.1 x.1) = true := by
    refine List.pairwise_mergeSort (fun x y z hxy hyz => ?_) (fun x y => ?_) entries
    · rw [Text.not_bytesBefore_iff] at hxy hyz ⊢
      exact String.le_trans hxy hyz
    · rw [Bool.or_eq_true, Text.not_bytesBefore_iff, Text.not_bytesBefore_iff]
      exact String.le_total _ _
  have hnames : (sortedEntries entries).Pairwise fun x y => x.1 ≠ y.1 :=
    List.pairwise_map.1 (((perm_sortedEntries entries).map Prod.fst).nodup_iff.2 h)
  refine (hsorted.and hnames).imp fun {x y} ⟨hle, hne⟩ => ?_
  rw [Text.not_bytesBefore_iff] at hle
  rw [Text.bytesBefore_iff]
  by_contra hlt
  exact hne (String.le_antisymm hle (String.not_lt.1 hlt))

/-- **A walk comes to everything** that names lead to, and to nothing else. -/
theorem mem_descend_iff {e : Entry} (h : e.Distinct) {names : List String} {k : FileKind} :
    (names, k) ∈ e.descend ↔ ∃ inner, e.get? names = some inner ∧ inner.kind = k := by
  induction names generalizing e with
  | nil =>
      cases e with
      | file content => simp [descend, get?, kind, eq_comm]
      | directory entries => simp [descend_directory, descendFrom, get?, kind, eq_comm]
  | cons name rest ih =>
      cases e with
      | file content => simp [descend, get?]
      | directory entries =>
          obtain ⟨hnames, hall⟩ := distinct_directory_iff.1 h
          -- under a name there is one entry, and the walk goes on from it
          have hmem : (name :: rest, k) ∈ (directory entries).descend ↔
              ∃ inner, (name, inner) ∈ entries ∧ (rest, k) ∈ inner.descend := by
            simp [descend_directory, descendFrom, (perm_sortedEntries entries).mem_iff]
          rw [hmem]
          constructor
          · rintro ⟨inner, hinner, hrest⟩
            obtain ⟨found, hfound, hkind⟩ := (ih (hall _ hinner)).1 hrest
            exact ⟨found, get?_cons_eq_some.2
              ⟨entries, inner, rfl, (lookup_eq_some_iff hnames).2 hinner, hfound⟩, hkind⟩
          · rintro ⟨found, hfound, hkind⟩
            obtain ⟨_, inner, ⟨⟩, hlookup, hinner⟩ := get?_cons_eq_some.1 hfound
            have hmem := (lookup_eq_some_iff hnames).1 hlookup
            exact ⟨inner, hmem, (ih (hall _ hmem)).2 ⟨found, hinner, hkind⟩⟩

/-- Whether some names come before others: the first name in which they differ decides, by its
bytes, and where they differ in none the shorter list. -/
def NamesBefore (a b : List String) : Prop :=
  List.Lex (fun s t => Text.bytesBefore s t = true) a b

/-- **A walk goes forward.** -/
theorem pairwise_descend {e : Entry} (h : e.Distinct) :
    e.descend.Pairwise fun x y => NamesBefore x.1 y.1 := by
  induction e using induct with
  | file content => exact List.pairwise_singleton _ _
  | directory entries ih =>
      obtain ⟨hnames, hall⟩ := distinct_directory_iff.1 h
      rw [descend_directory, List.pairwise_cons, List.pairwise_flatMap]
      refine ⟨fun y hy => ?_, fun x hx => ?_,
        (pairwise_sortedEntries hnames).imp fun {x y} hxy => ?_⟩
      · obtain ⟨x, -, hy⟩ := List.mem_flatMap.1 hy
        obtain ⟨z, -, rfl⟩ := List.mem_map.1 hy
        exact .nil
      · have hx := (perm_sortedEntries entries).mem_iff.1 hx
        rw [descendFrom, List.pairwise_map]
        exact (ih x hx (hall x hx)).imp .cons
      · intro a ha b hb
        obtain ⟨z, -, rfl⟩ := List.mem_map.1 ha
        obtain ⟨z', -, rfl⟩ := List.mem_map.1 hb
        exact .rel hxy

/-! ### Files -/

/-- The names that lead to files, in the order in which a walk comes to them. -/
def fileNames (e : Entry) : List (List String) :=
  (e.descend.filter fun x => x.2 = .regular).map Prod.fst

theorem mem_fileNames_iff {e : Entry} (h : e.Distinct) {names : List String} :
    names ∈ e.fileNames ↔ ∃ content, e.get? names = some (.file content) := by
  have hmem : names ∈ e.fileNames ↔ (names, .regular) ∈ e.descend := by simp [fileNames]
  rw [hmem, mem_descend_iff h]
  constructor
  · rintro ⟨inner, hinner, hkind⟩
    cases inner with
    | file content => exact ⟨content, hinner⟩
    | directory entries => cases hkind
  · rintro ⟨content, hcontent⟩
    exact ⟨_, hcontent, rfl⟩

theorem pairwise_fileNames {e : Entry} (h : e.Distinct) : e.fileNames.Pairwise NamesBefore :=
  List.pairwise_map.2 ((pairwise_descend h).filter _)

/-! ### Sorting everything at once -/

/-- What a walk from a path comes to under some names. -/
def metAt (path : Path) (x : List String × FileKind) : Met :=
  ⟨path.below x.1, x.2⟩

theorem perm_met (e : Entry) (base : List String) (path : Path) :
    (e.met base path).Perm (e.descend.map fun x => (base ++ x.1, metAt path x)) := by
  induction e using induct generalizing base path with
  | file content => simp [met, descend, metAt, Path.below]
  | directory entries ih =>
      have hbelow : (entries.flatMap fun x => x.2.met (base ++ [x.1]) (path.join ⟨x.1⟩)).Perm
          ((sortedEntries entries).flatMap fun x =>
            (descendFrom x).map fun y => (base ++ y.1, metAt path y)) := by
        refine (perm_sortedEntries entries).symm.flatMap fun x hx => ?_
        simpa [descendFrom, Function.comp_def, metAt, Path.below]
          using ih x hx (base ++ [x.1]) (path.join ⟨x.1⟩)
      rw [met, metInAll_eq_flatMap, descend_directory, List.map_cons, List.map_flatMap]
      simpa [metAt, Path.below] using hbelow.cons (base, Met.mk path .directory)

theorem namesBefore_iff {a b : List String} : NamesBefore a b ↔ sortsBefore a b = true := by
  rw [NamesBefore, sortsBefore_iff]
  simp only [Text.bytesBefore_iff]

theorem NamesBefore.ne {a b : List String} (h : NamesBefore a b) : a ≠ b := by
  rintro rfl
  have hself := namesBefore_iff.1 h
  exact sortsBefore_asymm hself hself

/-- **Two ways to walk.**  Sorting everything by its names comes to the same as going down in
place. -/
theorem walk_eq_descend {e : Entry} (h : e.Distinct) (path : Path) :
    e.walk path = e.descend.map (metAt path) := by
  have hforward := pairwise_descend h
  have hmet : inOrder (e.met [] path) =
      e.descend.map fun x => (x.1, metAt path x) := by
    refine eq_of_perm_of_sorted (fun x hx y hy hxy => ?_)
      ((perm_inOrder _).trans (e.perm_met [] path)) ?_ (pairwise_inOrder _)
    · -- what names lead to has one kind
      obtain ⟨⟨names, k⟩, hk, rfl⟩ := List.mem_map.1 hx
      obtain ⟨⟨names', k'⟩, hk', rfl⟩ := List.mem_map.1 hy
      obtain rfl : names = names' := hxy
      obtain ⟨inner, hinner, rfl⟩ := (mem_descend_iff h).1 hk
      obtain ⟨inner', hinner', rfl⟩ := (mem_descend_iff h).1 hk'
      rw [Option.some.inj (hinner.symm.trans hinner')]
    · rw [List.pairwise_map]
      exact hforward.imp fun {x y} hxy => sortsBefore_asymm (namesBefore_iff.1 hxy)
  rw [walk, hmet, List.map_map]
  rfl

end BlankLines.Entry
