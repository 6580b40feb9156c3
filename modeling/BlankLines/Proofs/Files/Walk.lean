import BlankLines.Files.Memory

/-!
# Proofs — Files — the order of a walk

A walk lists what is in an entry by the names that lead there, and each list of names has one path.
Most of what is said of a walk is about the files it meets.

* `Entry.induct`: what holds of every entry.
* `exists_of_mem_files`, `mem_files_of_get?`: under which names and paths a walk meets files.
* `filter_inOrder_eq`: what a walk keeps of its files, and in which order, depends only on the
  files it keeps.
* `FileSystem.filesUnder`: the files at and below a path; `files_of_walk`: a walk meets these among
  the rest.
-/

namespace BlankLines

/-- The path below a path under which names are met. -/
def Path.below (path : Path) (names : List String) : Path :=
  names.foldl (fun p name => p.join ⟨name⟩) path

namespace Entry

mutual

/-- What holds of files, and passes to a directory from its entries, holds of every entry. -/
theorem induct {P : Entry → Prop} (file : ∀ content, P (.file content))
    (directory : ∀ entries, (∀ x ∈ entries, P x.2) → P (.directory entries)) : ∀ e, P e
  | .file content      => file content
  | .directory entries => directory entries (induct_entries file directory entries)

theorem induct_entries {P : Entry → Prop} (file : ∀ content, P (.file content))
    (directory : ∀ entries, (∀ x ∈ entries, P x.2) → P (.directory entries)) :
    ∀ entries : List (String × Entry), ∀ x ∈ entries, P x.2
  | [], _, h => nomatch h
  | (_, e) :: _, _, .head _ => induct file directory e
  | _ :: rest, x, .tail _ h => induct_entries file directory rest x h

end

/-! ### The files of a walk -/

theorem filesOfAll_eq_flatMap (base : List String) (path : Path)
    (entries : List (String × Entry)) :
    filesOfAll base path entries =
      entries.flatMap fun x => x.2.files (base ++ [x.1]) (path.join ⟨x.1⟩) := by
  induction entries with
  | nil => rfl
  | cons entry rest ih => rw [filesOfAll, ih, List.flatMap_cons, filesOfNamed]

theorem metInAll_eq_flatMap (base : List String) (path : Path) (entries : List (String × Entry)) :
    metInAll base path entries =
      entries.flatMap fun x => x.2.met (base ++ [x.1]) (path.join ⟨x.1⟩) := by
  induction entries with
  | nil => rfl
  | cons entry rest ih => rw [metInAll, ih, List.flatMap_cons, metInNamed]

/-- The files of an entry are the regular files among what is met in it. -/
theorem files_eq (e : Entry) (base : List String) (path : Path) :
    e.files base path =
      ((e.met base path).filter fun x => x.2.kind = .regular).map fun x => (x.1, x.2.path) := by
  induction e using induct generalizing base path with
  | file content => simp [files, met]
  | directory entries ih =>
      rw [files, met, filesOfAll_eq_flatMap, metInAll_eq_flatMap, List.filter_cons_of_neg (by simp),
        List.filter_flatMap, List.map_flatMap, List.flatMap_def, List.flatMap_def]
      exact congrArg List.flatten (List.map_congr_left fun x hx => ih x hx _ _)

mutual

/-- The names that lead to a file settle the path it is met under. -/
theorem exists_of_mem_files : ∀ (e : Entry) (base : List String) (path : Path),
    ∀ x ∈ e.files base path, ∃ ns, x = (base ++ ns, path.below ns)
  | .file _, base, path, x, hx => by
      obtain rfl : x = (base, path) := by simpa [files] using hx
      exact ⟨[], by simp [Path.below]⟩
  | .directory entries, base, path, x, hx => by
      rw [files] at hx
      exact exists_of_mem_filesOfAll entries base path x hx

theorem exists_of_mem_filesOfAll :
    ∀ (entries : List (String × Entry)) (base : List String) (path : Path),
      ∀ x ∈ filesOfAll base path entries, ∃ ns, x = (base ++ ns, path.below ns)
  | [], _, _, x, hx => by simp [filesOfAll] at hx
  | entry :: rest, base, path, x, hx => by
      rw [filesOfAll, List.mem_append] at hx
      rcases hx with hx | hx
      · exact exists_of_mem_filesOfNamed entry base path x hx
      · exact exists_of_mem_filesOfAll rest base path x hx

theorem exists_of_mem_filesOfNamed :
    ∀ (entry : String × Entry) (base : List String) (path : Path),
      ∀ x ∈ filesOfNamed base path entry, ∃ ns, x = (base ++ ns, path.below ns)
  | (name, e), base, path, x, hx => by
      rw [filesOfNamed] at hx
      obtain ⟨ns, rfl⟩ := exists_of_mem_files e _ _ x hx
      exact ⟨name :: ns, by simp [Path.below]⟩

end

/-- The names that lead to a file tell it from all others. -/
theorem eq_of_mem_files {e : Entry} {path : Path} {x y : List String × Path}
    (hx : x ∈ e.files [] path) (hy : y ∈ e.files [] path) (hxy : x.1 = y.1) : x = y := by
  obtain ⟨ns, rfl⟩ := exists_of_mem_files e [] path x hx
  obtain ⟨ms, rfl⟩ := exists_of_mem_files e [] path y hy
  exact congrArg (fun ns => (ns, path.below ns)) (by simpa using hxy)

theorem mem_filesOfAll_of_lookup {entries : List (String × Entry)} {name : String} {e : Entry}
    (h : entries.lookup name = some e) {base : List String} {path : Path}
    {x : List String × Path} (hx : x ∈ e.files (base ++ [name]) (path.join ⟨name⟩)) :
    x ∈ filesOfAll base path entries := by
  induction entries with
  | nil => cases h
  | cons entry rest ih =>
      obtain ⟨k, e'⟩ := entry
      rw [filesOfAll, List.mem_append]
      rw [List.lookup_cons] at h
      split at h
      next hk =>
        obtain rfl := beq_iff_eq.1 hk
        cases h
        exact .inl hx
      next => exact .inr (ih h)

/-- A file that names lead to is met under them. -/
theorem mem_files_of_get? {ns : List String} {e : Entry} {content : ByteArray}
    (h : e.get? ns = some (.file content)) (base : List String) (path : Path) :
    (base ++ ns, path.below ns) ∈ e.files base path := by
  induction ns generalizing e base path with
  | nil =>
      obtain rfl : e = .file content := Option.some.inj h
      simp [files, Path.below]
  | cons n ns ih =>
      cases e with
      | file content' => cases h
      | directory entries =>
          rw [get?, Option.bind_eq_some_iff] at h
          obtain ⟨inner, hinner, hns⟩ := h
          have hmem := ih hns (base ++ [n]) (path.join ⟨n⟩)
          rw [List.append_assoc] at hmem
          rw [files]
          exact mem_filesOfAll_of_lookup hinner hmem

/-! ### Their order -/

theorem sortsBefore_iff {a b : List String} :
    sortsBefore a b = true ↔ List.Lex (fun s t => s < t) a b := by
  rw [sortsBefore, List.lex_eq_true_iff_lex]
  simp

theorem sortsBefore_trans {a b c : List String} (h : sortsBefore a b = true)
    (h' : sortsBefore b c = true) : sortsBefore a c = true := by
  rw [sortsBefore_iff] at h h' ⊢
  exact List.lex_trans String.lt_trans h h'

theorem sortsBefore_asymm {a b : List String} (h : sortsBefore a b = true) :
    ¬ sortsBefore b a = true := by
  rw [sortsBefore_iff] at h ⊢
  exact List.lex_asymm String.lt_asymm h

theorem eq_of_not_sortsBefore {a b : List String} (h : ¬ sortsBefore a b = true)
    (h' : ¬ sortsBefore b a = true) : a = b := by
  rw [sortsBefore_iff] at h h'
  refine List.lex_trichotomous (fun s t hst hts => ?_) h' h
  exact String.le_antisymm (String.not_lt.1 hts) (String.not_lt.1 hst)

variable {α : Type}

/-- A walk comes to the one no later than to the other. -/
def ListsFirst (x y : List String × α) : Prop :=
  ¬ sortsBefore y.1 x.1 = true

theorem ListsFirst.trans {x y z : List String × α} (h : ListsFirst x y) (h' : ListsFirst y z) :
    ListsFirst x z := by
  intro hzx
  -- `z` comes before `x`, and `x` before `y` unless both have the same names
  by_cases hxy : sortsBefore x.1 y.1 = true
  · exact h' (sortsBefore_trans hzx hxy)
  · exact h' (eq_of_not_sortsBefore hxy h ▸ hzx)

theorem perm_insertInOrder (x : List String × α) (xs : List (List String × α)) :
    (insertInOrder x xs).Perm (x :: xs) := by
  induction xs with
  | nil => exact .refl _
  | cons y rest ih =>
      rw [insertInOrder]
      split
      · exact (ih.cons y).trans (.swap x y rest)
      · exact .refl _

theorem perm_inOrder (xs : List (List String × α)) : (inOrder xs).Perm xs := by
  induction xs with
  | nil => exact .refl _
  | cons x rest ih => exact (perm_insertInOrder x _).trans (ih.cons x)

theorem pairwise_insertInOrder {xs : List (List String × α)} (h : xs.Pairwise ListsFirst)
    (x : List String × α) : (insertInOrder x xs).Pairwise ListsFirst := by
  induction h with
  | nil => exact .cons nofun .nil
  | @cons y rest hy hrest ih =>
      rw [insertInOrder]
      split
      next hyx =>
        refine .cons (fun z hz => ?_) ih
        rcases List.mem_cons.1 ((perm_insertInOrder x rest).mem_iff.1 hz) with rfl | hz
        · exact sortsBefore_asymm hyx
        · exact hy z hz
      next hyx =>
        refine .cons (fun z hz => ?_) (.cons hy hrest)
        rcases List.mem_cons.1 hz with rfl | hz
        · exact hyx
        · exact ListsFirst.trans hyx (hy z hz)

theorem pairwise_inOrder (xs : List (List String × α)) : (inOrder xs).Pairwise ListsFirst := by
  induction xs with
  | nil => exact .nil
  | cons x rest ih => exact pairwise_insertInOrder ih x

/-- Where names settle the rest, there is one list in order. -/
theorem eq_of_perm_of_sorted {xs ys : List (List String × α)}
    (hone : ∀ x ∈ xs, ∀ y ∈ xs, x.1 = y.1 → x = y) (h : ys.Perm xs)
    (hx : xs.Pairwise ListsFirst) (hy : ys.Pairwise ListsFirst) : ys = xs := by
  refine List.Perm.eq_of_pairwise (fun x y hmem hmem' hxy hyx => ?_) hy hx h
  exact hone x (h.mem_iff.1 hmem) y hmem' (eq_of_not_sortsBefore hyx hxy)

/-- **The order of a walk.**  Where names settle the rest, two lists in order agree on what is kept
if the lists out of order do. -/
theorem filter_inOrder_eq {xs ys : List (List String × α)} {q : List String × α → Bool}
    (hone : ∀ x ∈ xs, ∀ y ∈ xs, x.1 = y.1 → x = y) (h : ys.filter q = xs.filter q) :
    (inOrder ys).filter q = (inOrder xs).filter q := by
  have hperm : ∀ zs : List (List String × α), ((inOrder zs).filter q).Perm (zs.filter q) :=
    fun zs => (perm_inOrder zs).filter q
  have hmem : ∀ z ∈ (inOrder xs).filter q, z ∈ xs := fun z hz =>
    (perm_inOrder xs).mem_iff.1 (List.mem_filter.1 hz).1
  exact eq_of_perm_of_sorted (fun x hx y hy => hone x (hmem x hx) y (hmem y hy))
    ((hperm ys).trans (h ▸ (hperm xs).symm)) ((pairwise_inOrder xs).filter q)
    ((pairwise_inOrder ys).filter q)

/-! ### The files in order -/

/-- The files of an entry in the order in which a walk meets them. -/
def walkFiles (path : Path) (e : Entry) : List Path :=
  (inOrder (e.files [] path)).map Prod.snd

/-- A walk meets the files among the rest in their order. -/
theorem files_of_walk (path : Path) (e : Entry) :
    ((e.walk path).filter fun x => x.kind = .regular).map Met.path = e.walkFiles path := by
  have hsorted : ((inOrder (e.met [] path)).filter fun x => x.2.kind = .regular).map
      (fun x => (x.1, x.2.path)) = inOrder (e.files [] path) := by
    refine eq_of_perm_of_sorted (fun x hx y hy hxy => ?_) ?_ (pairwise_inOrder _) ?_
    · exact eq_of_mem_files ((perm_inOrder _).mem_iff.1 hx) ((perm_inOrder _).mem_iff.1 hy) hxy
    · rw [files_eq]
      exact (((perm_inOrder _).filter _).map _).trans (perm_inOrder _).symm
    · exact List.pairwise_map.2 ((pairwise_inOrder _).filter _)
  rw [walkFiles, ← hsorted, walk, List.filter_map, List.map_map, List.map_map]
  rfl

end Entry

/-- The files at and below a path, in the order of a walk. -/
def FileSystem.filesUnder (fs : FileSystem) (path : Path) : List Path :=
  match fs.locate path with
  | .ok ⟨_, some e, _⟩ => e.walkFiles path
  | _                  => []

end BlankLines
