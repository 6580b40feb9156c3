import BlankLines.Proofs.Files.Spelling
import BlankLines.Proofs.Scan.Roots
import BlankLines.Scan.Filter

/-!
# Proofs — Scan — patterns of paths to leave out

Patterns are read one by one and compiled together, yet none stands in the way of another: several
texts can be compiled exactly if each can be on its own.  So patterns that are added leave out what
was left out before, and perhaps more.

* `IsPattern`, `exists_compileExcludes_iff`: several texts are patterns exactly if each is one.
* `mem_of_compileExcludes`: what is compiled are the patterns of the texts.
* `Filter.includes_of_subset`: a filter with more extensions and fewer patterns takes no less.
* `AddsPatterns`, `Filter.Narrows`, `Filter.exists_narrows_of_ofConfig`: a filter with
  more patterns.
* `Filter.exists_scanAll_of_narrows`: what it finds is found without them, though perhaps under
  another spelling.
-/

namespace BlankLines

/-! ### Reading and compiling -/

/-- Whether a pattern can be compiled: a simple one always, any other unless it nests too deeply. -/
def Glob.IsShallow (p : Glob.Pattern) : Prop :=
  isSimple p = true ∨ nesting p ≤ nestingLimit

variable {texts : List String} {ps : List Glob.Pattern}

theorem exists_readPatterns_iff :
    (∃ ps, readPatterns texts = .ok ps) ↔ ∀ text ∈ texts, ∃ p, Glob.parse text = .ok p := by
  induction texts with
  | nil => simp [readPatterns]
  | cons text rest ih =>
      rw [List.forall_mem_cons, ← ih, readPatterns]
      constructor
      · rintro ⟨ps, h⟩
        obtain ⟨p, hp, h⟩ := bind_eq_ok_iff.1 h
        obtain ⟨ps, hps, -⟩ := bind_eq_ok_iff.1 h
        exact ⟨⟨p, mapError_eq_ok_iff.1 hp⟩, ps, hps⟩
      · rintro ⟨⟨p, hp⟩, ps, hps⟩
        exact ⟨p :: ps, bind_eq_ok_iff.2 ⟨p, mapError_eq_ok_iff.2 hp,
          bind_eq_ok_iff.2 ⟨ps, hps, rfl⟩⟩⟩

theorem mem_of_readPatterns (h : readPatterns texts = .ok ps) (p : Glob.Pattern) :
    p ∈ ps ↔ ∃ text ∈ texts, Glob.parse text = .ok p := by
  induction texts generalizing ps with
  | nil =>
      obtain rfl : [] = ps := Except.ok.inj h
      simp
  | cons text rest ih =>
      rw [readPatterns] at h
      obtain ⟨first, hfirst, h⟩ := bind_eq_ok_iff.1 h
      obtain ⟨more, hmore, h⟩ := bind_eq_ok_iff.1 h
      obtain rfl : first :: more = ps := Except.ok.inj h
      simp [ih hmore, mapError_eq_ok_iff.1 hfirst, eq_comm]

/-- No pattern is too deep exactly if none is deep, be it compiled on its own or with others. -/
theorem tooDeep?_eq_none_iff : tooDeep? ps = none ↔ ∀ p ∈ ps, Glob.IsShallow p := by
  simp only [tooDeep?, List.partition_eq_filter_filter, Glob.IsShallow]
  split
  next h =>
    simp only [List.any_eq_true, List.mem_filter, decide_eq_true_eq, Bool.not_eq_true'] at h
    obtain ⟨p, ⟨⟨hp, hcomplex⟩, -⟩, hdeep⟩ := h
    refine ⟨nofun, fun hshallow => absurd (hshallow p hp) ?_⟩
    simpa [hcomplex] using hdeep
  next h =>
    simp only [List.any_eq_true, List.mem_filter, decide_eq_true_eq, Bool.not_eq_true', not_exists,
      List.findIdx?_eq_none_iff, Function.comp_apply] at h ⊢
    grind

theorem compileExcludes_eq_ok_iff :
    compileExcludes texts = .ok ps ↔ readPatterns texts = .ok ps ∧ ∀ p ∈ ps, Glob.IsShallow p := by
  rw [compileExcludes, bind_eq_ok_iff]
  constructor
  · rintro ⟨ps', hread, h⟩
    split at h
    · cases h
    next hnone =>
      obtain rfl : ps' = ps := Except.ok.inj h
      exact ⟨hread, tooDeep?_eq_none_iff.1 hnone⟩
  · rintro ⟨hread, hshallow⟩
    refine ⟨ps, hread, ?_⟩
    rw [tooDeep?_eq_none_iff.2 hshallow]
    rfl

/-- The patterns of several texts are those of each. -/
theorem mem_of_compileExcludes (h : compileExcludes texts = .ok ps) (p : Glob.Pattern) :
    p ∈ ps ↔ ∃ text ∈ texts, Glob.parse text = .ok p :=
  mem_of_readPatterns (compileExcludes_eq_ok_iff.1 h).1 p

theorem exists_compileExcludes_iff_parse :
    (∃ ps, compileExcludes texts = .ok ps) ↔
      ∀ text ∈ texts, ∃ p, Glob.parse text = .ok p ∧ Glob.IsShallow p := by
  constructor
  · rintro ⟨ps, h⟩ text htext
    obtain ⟨hread, hshallow⟩ := compileExcludes_eq_ok_iff.1 h
    obtain ⟨p, hp⟩ := exists_readPatterns_iff.1 ⟨ps, hread⟩ text htext
    exact ⟨p, hp, hshallow p ((mem_of_readPatterns hread p).2 ⟨text, htext, hp⟩)⟩
  · intro h
    obtain ⟨ps, hread⟩ := exists_readPatterns_iff.2 fun text htext =>
      (h text htext).imp fun _ => And.left
    refine ⟨ps, compileExcludes_eq_ok_iff.2 ⟨hread, fun p hp => ?_⟩⟩
    obtain ⟨text, htext, hp⟩ := (mem_of_readPatterns hread p).1 hp
    obtain ⟨p', hp', hshallow⟩ := h text htext
    exact Except.ok.inj (hp'.symm.trans hp) ▸ hshallow

/-- Whether a text is a pattern by itself. -/
def IsPattern (text : String) : Prop :=
  ∃ ps, compileExcludes [text] = .ok ps

/-- **Several texts are patterns** together exactly if each is one by itself. -/
theorem exists_compileExcludes_iff :
    (∃ ps, compileExcludes texts = .ok ps) ↔ ∀ text ∈ texts, IsPattern text := by
  rw [exists_compileExcludes_iff_parse]
  refine forall₂_congr fun text _ => ?_
  rw [IsPattern, exists_compileExcludes_iff_parse, List.forall_mem_singleton]

/-- Further patterns beside those there were, in any order. -/
structure AddsPatterns (texts more : List String) : Prop where
  kept : texts ⊆ more
  added : ∀ text ∈ more, text ∈ texts ∨ IsPattern text

theorem AddsPatterns.append_left {more : List String} (h : AddsPatterns texts more)
    (before : List String) : AddsPatterns (before ++ texts) (before ++ more) where
  kept := List.append_subset.2
    ⟨List.subset_append_left .., List.subset_append_of_subset_right _ h.kept⟩
  added := by
    intro text htext
    rcases List.mem_append.1 htext with htext | htext
    · exact .inl (List.mem_append_left _ htext)
    · exact (h.added text htext).imp_left (List.mem_append_right _)

/-! ### A filter that leaves out more -/

namespace Filter

variable {f f' : Filter} {fs : FileSystem}

/-- What is taken for a tree ends in a name. -/
theorem exists_name_of_includes {p : Path} (h : f.includes p = true) :
    ∃ n, p.steps.getLast? = some (.name n) := by
  cases hname : p.fileName? with
  | none => simp [includes, hasExtension, Path.extension?, hname] at h
  | some n => exact ⟨n, Path.fileName?_eq_some_iff.1 hname⟩

/-- With more extensions and fewer patterns, a filter takes what it took, and perhaps more. -/
theorem includes_of_subset (hextensions : f.extensions ⊆ f'.extensions)
    (hexcludes : f'.excludes ⊆ f.excludes) {p : Path} (hp : f.includes p = true) :
    f'.includes p = true := by
  simp only [includes, hasExtension, Bool.and_eq_true, Option.any_eq_true, List.contains_iff_mem,
    Bool.not_eq_true', List.any_eq_false] at hp ⊢
  obtain ⟨⟨e, he, hmem⟩, hnone⟩ := hp
  exact ⟨⟨e, he, hextensions hmem⟩, fun g hg => hnone g (hexcludes hg)⟩

/-- A filter with the extensions of another and all its patterns. -/
structure Narrows (f' f : Filter) : Prop where
  extensions : f'.extensions = f.extensions
  excludes : f.excludes ⊆ f'.excludes

theorem Narrows.includes (h : f'.Narrows f) {p : Path} (hp : f'.includes p = true) :
    f.includes p = true :=
  includes_of_subset (h.extensions ▸ List.Subset.refl _) h.excludes hp

/-- Patterns that are added to those of a configuration narrow its filter. -/
theorem exists_narrows_of_ofConfig {c : ScannerConfig} (h : ofConfig c = .ok f)
    (hadds : AddsPatterns c.exclude texts) :
    ∃ f', ofConfig { c with exclude := texts } = .ok f' ∧ f'.Narrows f := by
  obtain ⟨ps, hps, h⟩ := bind_eq_ok_iff.1 h
  obtain rfl := Except.ok.inj h
  obtain ⟨ps', hps'⟩ := exists_compileExcludes_iff.2 fun text htext =>
    (hadds.added text htext).elim (exists_compileExcludes_iff.1 ⟨ps, hps⟩ text) id
  refine ⟨_, bind_eq_ok_iff.2 ⟨ps', hps', rfl⟩, rfl, fun p hp => ?_⟩
  obtain ⟨text, htext, hp⟩ := (mem_of_compileExcludes hps p).1 hp
  exact (mem_of_compileExcludes hps' p).2 ⟨text, hadds.kept htext, hp⟩

/-- **A narrower scan.**  Each tree that it finds, the wider one finds as well, though perhaps under
another spelling, since the first of the spellings may be left out; both spellings end in a name. -/
theorem exists_scanAll_of_narrows (h : f'.Narrows f) (hw : fs.root.WellNamed)
    {roots paths : List Path} (hpaths : scanAll (scan f.includes fs.disk) roots = .ok paths) :
    ∃ paths', scanAll (scan f'.includes fs.disk) roots = .ok paths' ∧
      (paths'.Pairwise fun p q => ¬ p.Same q) ∧
      ∀ p' ∈ paths', ∃ p ∈ paths, p.Same p' ∧ p.IsSolid ∧ p'.IsSolid := by
  rw [scanAll_eq_map, map_eq_ok_iff] at hpaths
  obtain ⟨found, hfound, rfl⟩ := hpaths
  have hroots := isPresent_of_scanEach hfound
  rw [scanEach_eq hroots] at hfound
  obtain rfl := Except.ok.inj hfound
  refine ⟨_, scanAll_eq hroots, pairwise_keepFirst _, fun p' hp' => ?_⟩
  -- what either scan meets ends in a name
  have hsolid : ∀ g : Filter,
      ∀ p ∈ roots.flatMap fun root => (fs.filesUnder root).filter g.includes, p.IsSolid := by
    intro g p hp
    obtain ⟨root, hroot, hp⟩ := List.mem_flatMap.1 hp
    obtain ⟨hmet, hincluded⟩ := List.mem_filter.1 hp
    obtain ⟨n, hn⟩ := exists_name_of_includes hincluded
    exact FileSystem.isSolid_of_mem_filesUnder hw (hroots root hroot) hmet hn
  have hmet' := (keepFirst_sublist _).subset hp'
  have hmet : p' ∈ roots.flatMap fun root => (fs.filesUnder root).filter f.includes := by
    obtain ⟨root, hroot, hp'⟩ := List.mem_flatMap.1 hmet'
    obtain ⟨hunder, hincluded⟩ := List.mem_filter.1 hp'
    exact List.mem_flatMap.2 ⟨root, hroot, List.mem_filter.2 ⟨hunder, h.includes hincluded⟩⟩
  obtain ⟨p, hp, hsame⟩ := exists_mem_keepFirst hmet
  exact ⟨p, hp, hsame, hsolid f p ((keepFirst_sublist _).subset hp), hsolid f' p' hmet'⟩

end Filter

end BlankLines
