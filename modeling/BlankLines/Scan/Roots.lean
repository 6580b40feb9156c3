import BlankLines.Error

/-!
# Scan — Roots

The files at and below a list of roots: each root's in turn, and of two spellings of the same
components only the first.

* `keepFirst`: leaves out every path that an earlier one spells differently at most.
* `scan`: the files of one root that a filter takes; any predicate on paths is a filter.
* `scanAll`: the files of all roots, by any scan of one root, or the first error.
-/

namespace BlankLines

/-- Leaves out every path with the components of an earlier one. -/
def keepFirst : List Path → List Path
  | [] => []
  | p :: rest => p :: (keepFirst rest).filter fun q => ¬ p.Same q

theorem keepFirst_sublist (ps : List Path) : (keepFirst ps).Sublist ps := by
  induction ps with
  | nil => exact .slnil
  | cons p rest ih => exact (List.filter_sublist.trans ih).cons_cons p

/-- No two of the paths kept have the same components. -/
theorem pairwise_keepFirst (ps : List Path) :
    (keepFirst ps).Pairwise fun p q => ¬ p.Same q := by
  induction ps with
  | nil => exact .nil
  | cons p rest ih =>
    refine .cons ?_ (ih.sublist List.filter_sublist)
    intro q hq
    simpa using (List.mem_filter.1 hq).2

/-- Every path has a kept one with its components. -/
theorem exists_mem_keepFirst {ps : List Path} {p : Path} (h : p ∈ ps) :
    ∃ q ∈ keepFirst ps, q.Same p := by
  induction ps with
  | nil => cases h
  | cons r rest ih =>
    by_cases hr : r.Same p
    · exact ⟨r, List.mem_cons_self, hr⟩
    · rcases List.mem_cons.1 h with rfl | h
      · exact absurd (Path.same_refl _) hr
      · obtain ⟨q, hq, hs⟩ := ih h
        refine ⟨q, List.mem_cons_of_mem _ (List.mem_filter.2 ⟨hq, ?_⟩), hs⟩
        simpa using fun hrq : r.Same q => hr (hrq.trans hs)

/-- The regular files among what a walk comes to; faults are passed over. -/
def regularFiles (found : List (Except IoFault Met)) : List Path :=
  ((found.filterMap Except.toOption).filter fun e => e.kind = .regular).map Met.path

variable {m : Type → Type} [Monad m]

/-- The regular files at and below a root that `takes` accepts. -/
def scan (takes : Path → Bool) (disk : Disk m) (root : Path) : m (Except Error (List Path)) := do
  if ← disk.isPresent root then return .ok ((regularFiles (← disk.filesUnder root)).filter takes)
  else return .error (.missingRoot root)

/-- What a scan finds for each root in turn, up to the first error. -/
def scanEach (scanRoot : Path → m (Except Error (List Path))) :
    List Path → m (Except Error (List Path))
  | [] => return .ok []
  | root :: rest => do
    match ← scanRoot root with
    | .error e => return .error e
    | .ok here =>
      match ← scanEach scanRoot rest with
      | .error e => return .error e
      | .ok more => return .ok (here ++ more)

/-- What a scan finds for all roots, each path once. -/
def scanAll (scanRoot : Path → m (Except Error (List Path))) (roots : List Path) :
    m (Except Error (List Path)) := do
  return (← scanEach scanRoot roots).map keepFirst

end BlankLines
