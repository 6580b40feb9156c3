import Mathlib.Data.List.Induction
import BlankLines.Proofs.Scan.Duplicates

/-!
# Proofs — Scan — several roots together

The paths found below several roots are joined in the order of the roots, and of those with equal
components the first is kept.

* `firstSpellings`, `keepFirst_eq_firstSpellings`: what is kept, told by what comes earlier.
* `keepFirst_append_of_covered`: paths whose components have been met change nothing.
* `scanAll_merges`: a scan of several roots fails as the first that fails, and else keeps the first
  spelling of everything; roots that add no components can be left out.
-/

namespace BlankLines

/-! ### First spellings -/

/-- The paths of a list that have the components of no earlier one. -/
def firstSpellings (ps : List Path) : List Path :=
  (ps.zipIdx.filter fun x : Path × Nat => ∀ q ∈ ps.take x.2, ¬ q.Same x.1).map Prod.fst

/-- A further path is kept if its components are new. -/
theorem firstSpellings_concat (ps : List Path) (p : Path) :
    firstSpellings (ps ++ [p]) =
      firstSpellings ps ++ if ∀ q ∈ ps, ¬ q.Same p then [p] else [] := by
  have hearlier : ∀ x ∈ ps.zipIdx, (ps ++ [p]).take x.2 = ps.take x.2 := fun x hx =>
    List.take_append_of_le_length (Nat.le_of_lt (List.snd_lt_of_mem_zipIdx hx))
  have hinit : ps.zipIdx.filter
        (fun x : Path × Nat => ∀ q ∈ (ps ++ [p]).take x.2, ¬ q.Same x.1) =
      ps.zipIdx.filter fun x : Path × Nat => ∀ q ∈ ps.take x.2, ¬ q.Same x.1 :=
    List.filter_congr fun x hx => by rw [hearlier x hx]
  rw [firstSpellings, List.zipIdx_append, List.filter_append, List.map_append, hinit]
  have hlast : ([p].zipIdx (0 + ps.length)).filter
        (fun x : Path × Nat => ∀ q ∈ (ps ++ [p]).take x.2, ¬ q.Same x.1) =
      if ∀ q ∈ ps, ¬ q.Same p then [(p, ps.length)] else [] := by
    simp [List.filter_cons]
  rw [hlast]
  split <;> rfl

/-- What is kept of two lists: of the second, the paths whose components the first has not. -/
theorem keepFirst_append (ps qs : List Path) :
    keepFirst (ps ++ qs) =
      keepFirst ps ++ (keepFirst qs).filter fun q => ∀ p ∈ ps, ¬ p.Same q := by
  induction ps with
  | nil => exact (List.filter_eq_self.2 fun _ _ => by simp).symm
  | cons p rest ih =>
      rw [List.cons_append, keepFirst, keepFirst, ih, List.filter_append, List.filter_filter,
        List.cons_append]
      simp

/-- **The first spelling of everything.** -/
theorem keepFirst_eq_firstSpellings (ps : List Path) : keepFirst ps = firstSpellings ps := by
  induction ps using List.reverseRecOn with
  | nil => rfl
  | append_singleton ps p ih =>
      rw [keepFirst_append, firstSpellings_concat, ih]
      simp [keepFirst, List.filter_cons]

/-- Paths whose components have been met can be left out. -/
theorem keepFirst_append_of_covered {ps qs : List Path} (h : ∀ q ∈ qs, ∃ p ∈ ps, p.Same q)
    (rs : List Path) : keepFirst (ps ++ qs ++ rs) = keepFirst (ps ++ rs) := by
  have hnone : (keepFirst qs).filter (fun q => ∀ p ∈ ps, ¬ p.Same q) = [] := by
    rw [List.filter_eq_nil_iff]
    intro q hq hnew
    obtain ⟨p, hp, hsame⟩ := h q ((keepFirst_sublist qs).subset hq)
    exact of_decide_eq_true hnew p hp hsame
  have hsame : ∀ r : Path, (∀ p ∈ ps ++ qs, ¬ p.Same r) ↔ ∀ p ∈ ps, ¬ p.Same r := by
    refine fun r => ⟨fun hr p hp => hr p (List.mem_append_left _ hp), fun hr p hp => ?_⟩
    rcases List.mem_append.1 hp with hp | hp
    · exact hr p hp
    · obtain ⟨q, hq, hqp⟩ := h p hp
      exact fun hpr => hr q hq (hqp.trans hpr)
  rw [keepFirst_append, keepFirst_append ps qs, hnone, List.append_nil, keepFirst_append ps rs]
  simp only [hsame]

/-! ### Scans of several roots -/

section
variable {scanRoot : Path → Id (Except Error (List Path))}

theorem scanEach_append (scanRoot : Path → Id (Except Error (List Path)))
    (roots roots' : List Path) :
    scanEach scanRoot (roots ++ roots') =
      (scanEach scanRoot roots).bind fun here =>
        (scanEach scanRoot roots').map fun more => here ++ more := by
  induction roots with
  | nil => cases h : scanEach scanRoot roots' <;> simp [h, scanEach, Except.map, Except.bind, pure]
  | cons root rest ih =>
      rw [List.cons_append, scanEach_cons, scanEach_cons, ih]
      cases scanRoot root with
      | error e => rfl
      | ok here =>
          cases scanEach scanRoot rest with
          | error e => rfl
          | ok more => cases scanEach scanRoot roots' <;> simp [Except.map, Except.bind]

/-- Where the scan of each root succeeds there are lists of what they find. -/
theorem exists_below_of_forall_ok {roots : List Path}
    (h : ∀ root ∈ roots, ∃ here, scanRoot root = .ok here) :
    ∃ below : Path → List Path, ∀ root ∈ roots, scanRoot root = .ok (below root) := by
  refine ⟨fun root => (scanRoot root).toOption.getD [], fun root hroot => ?_⟩
  obtain ⟨here, hhere⟩ := h root hroot
  simp only [hhere, Except.toOption, Option.getD_some]

/-- **The first root that fails decides**, whatever comes after it. -/
theorem scanAll_of_error {before : List Path} {failing : Path} {e : Error}
    (hbefore : ∀ root ∈ before, ∃ here, scanRoot root = .ok here)
    (hfailing : scanRoot failing = .error e) (after : List Path) :
    scanAll scanRoot (before ++ failing :: after) = .error e := by
  obtain ⟨below, hbelow⟩ := exists_below_of_forall_ok hbefore
  rw [scanAll_eq_map, scanEach_append, scanEach_of_ok hbelow, scanEach_cons, hfailing]
  rfl

/-- A root can be left out if the roots before it cover what is below it. -/
theorem scanAll_of_covered {before found here : List Path} {root : Path}
    (hbefore : scanEach scanRoot before = .ok found) (hroot : scanRoot root = .ok here)
    (hcovered : ∀ p ∈ here, ∃ q ∈ found, q.Same p) (after : List Path) :
    scanAll scanRoot (before ++ root :: after) = scanAll scanRoot (before ++ after) := by
  rw [scanAll_eq_map, scanAll_eq_map, scanEach_append, scanEach_append, scanEach_cons, hbefore,
    hroot]
  cases scanEach scanRoot after with
  | error e => rfl
  | ok more =>
      have hkeep := keepFirst_append_of_covered hcovered more
      rw [List.append_assoc] at hkeep
      exact congrArg Except.ok hkeep

/-- A root that has come before can be left out. -/
theorem scanAll_of_mem {before : List Path} {root : Path} (hroot : root ∈ before)
    (after : List Path) :
    scanAll scanRoot (before ++ root :: after) = scanAll scanRoot (before ++ after) := by
  cases hbefore : scanEach scanRoot before with
  | error e => rw [scanAll_eq_map, scanAll_eq_map, scanEach_append, scanEach_append, hbefore]; rfl
  | ok found =>
      obtain ⟨here, hhere, hsub⟩ := exists_ok_of_scanEach hbefore hroot
      exact scanAll_of_covered hbefore hhere (fun p hp => ⟨p, hsub hp, p.same_refl⟩) after

end

/-- **Merging roots loses nothing and keeps first spellings**, whatever finds the paths below each
root.  A scan of several roots fails as the first that fails, whatever the others hold.  If none
fails it succeeds, and of the paths found below them, one root after the other, it leaves out those
with the components of an earlier one: everything is found in some spelling, in its first one, and
once.  So a root that has come before adds nothing, and neither does one below which all has been
found in some spelling.  A scan through directories fails exactly for a root that is missing, so
that the first missing root decides. -/
theorem scanAll_merges (scanRoot : Path → Id (Except Error (List Path))) (takes : Path → Bool)
    (disk : Disk Id) :
    (∀ before failing after e, (∀ root ∈ before, ∃ here, scanRoot root = .ok here) →
      scanRoot failing = .error e →
        scanAll scanRoot (before ++ failing :: after) = .error e) ∧
    (∀ roots, (∀ root ∈ roots, ∃ here, scanRoot root = .ok here) →
      ∃ below : Path → List Path, (∀ root ∈ roots, scanRoot root = .ok (below root)) ∧
        ∃ files, scanAll scanRoot roots = .ok files ∧
          files = firstSpellings (roots.flatMap below) ∧
          files.Sublist (roots.flatMap below) ∧
          (∀ root ∈ roots, ∀ p ∈ below root, ∃ q ∈ files, q.Same p) ∧
          files.Pairwise fun p q => ¬ p.Same q) ∧
    (∀ before root after, root ∈ before →
      scanAll scanRoot (before ++ root :: after) = scanAll scanRoot (before ++ after)) ∧
    (∀ before root after files here, scanAll scanRoot before = .ok files →
      scanRoot root = .ok here → (∀ p ∈ here, ∃ q ∈ files, q.Same p) →
        scanAll scanRoot (before ++ root :: after) = scanAll scanRoot (before ++ after)) ∧
    (∀ root, (∃ here, scan takes disk root = .ok here) ↔ disk.isPresent root = true) ∧
    (∀ before missing after, (∀ root ∈ before, disk.isPresent root = true) →
      disk.isPresent missing = false →
        scan takes disk missing = .error (.missingRoot missing) ∧
        scanAll (scan takes disk) (before ++ missing :: after) = .error (.missingRoot missing)) := by
  have hpresent : ∀ root,
      (∃ here, scan takes disk root = .ok here) ↔ disk.isPresent root = true := fun root => by
    simp only [scan_eq_ok_iff, exists_and_left, exists_eq, and_true]
  refine ⟨fun before failing after e hbefore hfailing => scanAll_of_error hbefore hfailing after,
    fun roots hroots => ?_, fun before root after hroot => scanAll_of_mem hroot after,
    fun before root after files here hfiles hhere hcovered => ?_, hpresent,
    fun before missing after hbefore hmissing => ?_⟩
  · obtain ⟨below, hbelow⟩ := exists_below_of_forall_ok hroots
    refine ⟨below, hbelow, _, ?_, keepFirst_eq_firstSpellings _, keepFirst_sublist _,
      fun root hroot p hp => ?_, pairwise_keepFirst _⟩
    · rw [scanAll_eq_map, scanEach_of_ok hbelow]
      rfl
    · exact exists_mem_keepFirst (List.mem_flatMap.2 ⟨root, hroot, hp⟩)
  · obtain ⟨found, hfound, rfl⟩ := map_eq_ok_iff.1 hfiles
    refine scanAll_of_covered hfound hhere (fun p hp => ?_) after
    obtain ⟨q, hq, hsame⟩ := hcovered p hp
    exact ⟨q, (keepFirst_sublist found).subset hq, hsame⟩
  · have hfails := scan_of_isPresent_eq_false takes hmissing
    exact ⟨hfails, scanAll_of_error (fun root hroot => (hpresent root).2 (hbefore root hroot))
      hfails after⟩

/-- Every file is taken.  A root that is missing hides the one after it, a root can come twice, and
a file is found once though it is named again with a doubled slash. -/
theorem scanAll_merges_smallFiles :
    let scanRoot := scan (fun _ => true) smallFiles.disk
    scanAll scanRoot [⟨"."⟩, ⟨"x"⟩, ⟨"y"⟩] = .error (.missingRoot ⟨"x"⟩) ∧
      (∃ files, scanAll scanRoot [⟨"d"⟩, ⟨"."⟩, ⟨".//a.json"⟩] = .ok files ∧
        (∃ q ∈ files, q.Same ⟨".//a.json"⟩) ∧ files.Pairwise fun p q => ¬ p.Same q) ∧
      scanAll scanRoot [⟨"."⟩, ⟨"."⟩, ⟨"d"⟩] = scanAll scanRoot [⟨"."⟩, ⟨"d"⟩] ∧
      scanAll scanRoot [⟨"."⟩, ⟨".//a.json"⟩] = scanAll scanRoot [⟨"."⟩] := by
  intro scanRoot
  obtain ⟨-, hmerged, htwice, hcovered, hpresent, hmissing⟩ :=
    scanAll_merges scanRoot (fun _ => true) smallFiles.disk
  have hroots : ∀ root ∈ [Path.mk "d", ⟨"."⟩, ⟨".//a.json"⟩],
      smallFiles.isPresent root = true := by
    decide +kernel
  have habsent : smallFiles.isPresent ⟨"x"⟩ = false := by decide +kernel
  have hhead : ∀ root ∈ [Path.mk "."], smallFiles.isPresent root = true := by decide +kernel
  have hall : scanAll scanRoot [⟨"."⟩] = .ok [⟨"./a.json"⟩] :=
    (scanAll_eq hhead).trans (congrArg Except.ok (by decide +kernel))
  have hhere : scanRoot ⟨".//a.json"⟩ = .ok [⟨".//a.json"⟩] :=
    (scan_eq (hroots ⟨".//a.json"⟩ (by simp))).trans (congrArg Except.ok (by decide +kernel))
  refine ⟨?_, ?_, htwice [⟨"."⟩] ⟨"."⟩ [⟨"d"⟩] (by simp), ?_⟩
  · exact (hmissing [⟨"."⟩] ⟨"x"⟩ [⟨"y"⟩] hhead habsent).2
  · obtain ⟨below, hbelow, files, hfiles, -, -, hcover, honce⟩ :=
      hmerged _ fun root hroot => (hpresent root).2 (hroots root hroot)
    have hmem : Path.mk ".//a.json" ∈ below ⟨".//a.json"⟩ := by
      have heq := (hbelow ⟨".//a.json"⟩ (by simp)).symm.trans hhere
      rw [Except.ok.inj heq]
      exact List.mem_singleton_self _
    exact ⟨files, hfiles, hcover _ (by simp) _ hmem, honce⟩
  · exact hcovered [⟨"."⟩] ⟨".//a.json"⟩ [] _ _ hall hhere (by decide +kernel)

end BlankLines
