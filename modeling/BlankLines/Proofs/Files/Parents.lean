import BlankLines.Proofs.Files.Steps

/-!
# Proofs — Files — the last piece of a path

The pieces of a path between its slashes are not all components: doubled slashes and a `.` leave
none, and so does a slash at the end.  A path is solid if its last piece is a name or a `..`; then
no piece behind the last component is lost when the path is put together again.

* `Path.core`: the pieces that make names and `..`, which the steps of a path settle.
* `Path.isSolid_join_name`: a path that is joined with a name is solid.
* `Path.IsSolid.exists_parent`: the parent of a solid path has all its steps but the last.
-/

namespace BlankLines.Path

/-! ### Pieces that count -/

/-- Whether a piece of a path leads on, be it up. -/
def counts (piece : List Char) : Bool :=
  piece ≠ [] && piece ≠ ['.']

theorem all_isEmpty_of_counts {piece : List Char} (h : counts piece = true)
    (rest : List (List Char)) : (piece :: rest).all List.isEmpty = false := by
  cases piece with
  | nil => cases h
  | cons => rfl

/-- The pieces that lead on. -/
def core (ps : List (List Char)) : List (List Char) :=
  ps.filter counts

theorem core_append (ps qs : List (List Char)) : core (ps ++ qs) = core ps ++ core qs :=
  List.filter_append ..

/-- The piece that makes a step, if it leads on. -/
def Step.piece? : Step → Option (List Char)
  | .root      => none
  | .here      => none
  | .up        => some ['.', '.']
  | .name text => some text

theorem core_eq_filterMap (isFirst : Bool) (ps : List (List Char)) :
    core ps = (stepsFrom isFirst ps).filterMap Step.piece? := by
  induction ps generalizing isFirst with
  | nil => rfl
  | cons piece rest ih =>
      rw [stepsFrom, List.filterMap_append, ← ih false, core, List.filter_cons]
      by_cases h₁ : piece = []
      · simp [h₁, counts, stepOf?, core]
      · by_cases h₂ : piece = ['.']
        · cases isFirst <;> simp [h₂, counts, stepOf?, core, Step.piece?]
        · by_cases h₃ : piece = ['.', '.'] <;> simp [h₁, h₂, h₃, counts, stepOf?, core, Step.piece?]

/-- The pieces that lead on are settled by the steps. -/
theorem core_pieces_eq (p : Path) :
    core (pieces p.text.toList) = p.steps.filterMap Step.piece? := by
  rw [steps_eq, List.filterMap_append, ← core_eq_filterMap]
  split <;> rfl

theorem mem_iff_exists_piece {c : Char} (hc : c ≠ '/') (cs : List Char) :
    c ∈ cs ↔ ∃ piece ∈ pieces cs, c ∈ piece := by
  induction cs with
  | nil => simp [pieces]
  | cons d cs ih =>
      rw [List.mem_cons, ih, pieces]
      split
      next hd => simp [hd, hc]
      next hd =>
        cases hps : pieces cs with
        | nil => exact absurd hps (pieces_ne_nil cs)
        | cons piece more => simp [or_assoc]

theorem Same.core_eq {p q : Path} (h : p.Same q) :
    core (pieces p.text.toList) = core (pieces q.text.toList) := by
  rw [core_pieces_eq, core_pieces_eq, h]

theorem root_not_mem_stepsFrom (isFirst : Bool) (ps : List (List Char)) :
    .root ∉ stepsFrom isFirst ps := by
  induction ps generalizing isFirst with
  | nil => simp [stepsFrom]
  | cons piece rest ih =>
      rw [stepsFrom, List.mem_append, not_or]
      refine ⟨?_, ih false⟩
      simp only [stepOf?]
      split
      · simp
      split
      · split <;> simp
      split <;> simp

theorem Same.isAbsolute_iff {p q : Path} (h : p.Same q) :
    p.isAbsolute = true ↔ q.isAbsolute = true := by
  have hroot : ∀ p : Path, p.isAbsolute = true ↔ .root ∈ p.steps := by
    intro p
    rw [steps_eq, List.mem_append]
    split
    next ha => simp [ha]
    next ha => simp [ha, root_not_mem_stepsFrom]
  rw [hroot, hroot, h]

theorem ne_up_of_name_mem_stepsFrom {text : List Char} {isFirst : Bool}
    {ps : List (List Char)} (h : .name text ∈ stepsFrom isFirst ps) : text ≠ ['.', '.'] := by
  induction ps generalizing isFirst with
  | nil => simp [stepsFrom] at h
  | cons piece rest ih =>
      rw [stepsFrom, List.mem_append] at h
      rcases h with h | h
      · rintro rfl
        simp only [stepOf?, Option.mem_toList] at h
        grind
      · exact ih h

theorem ne_up_of_name_mem {p : Path} {text : List Char} (h : .name text ∈ p.steps) :
    text ≠ ['.', '.'] := by
  rw [steps_eq, List.mem_append] at h
  refine h.elim (fun h => ?_) ne_up_of_name_mem_stepsFrom
  split at h <;> simp at h

/-- Pieces of which the last leads on. -/
def Solid (ps : List (List Char)) : Prop :=
  ∃ init last, ps = init ++ [last] ∧ counts last = true

/-- A path that ends in a name or a `..`. -/
def IsSolid (p : Path) : Prop :=
  Solid (pieces p.text.toList)

/-- A text with a piece that leads on is not empty. -/
theorem ne_nil_of_pieces_eq {cs : List Char} {ps rest : List (List Char)}
    (h : pieces cs = ps ++ rest) (hps : Solid ps) : cs ≠ [] := by
  rintro rfl
  obtain ⟨init, last, rfl, hlast⟩ := hps
  have hmem : last ∈ pieces [] := by simp [h]
  obtain rfl : last = [] := List.mem_singleton.1 hmem
  cases hlast

theorem Solid.append {ps : List (List Char)} (h : Solid ps) (before : List (List Char)) :
    Solid (before ++ ps) := by
  obtain ⟨init, last, rfl, hlast⟩ := h
  exact ⟨before ++ init, last, (List.append_assoc ..).symm, hlast⟩

theorem isSolid_join_name (p : Path) {n : String} (h : IsName n.toList) :
    (p.join ⟨n⟩).IsSolid := by
  have hpieces : pieces n.toList = [n.toList] := Path.pieces_of_not_mem h.2.2.2
  have hcounts : counts n.toList = true := by simp [counts, h.1, h.2.1]
  by_cases hp : p.text.toList = []
  · have hj : p.join ⟨n⟩ = ⟨n⟩ := by simp [Path.join, hp]
    exact ⟨[], n.toList, by rw [hj, hpieces]; rfl, hcounts⟩
  · obtain ⟨ps, -, -, hjoin⟩ := Path.exists_pieces_join hp
    exact ⟨ps, n.toList, by rw [hjoin ⟨n⟩ h.not_isAbsolute, hpieces], hcounts⟩

/-! ### Parents -/

theorem intercalate_pieces (cs : List Char) : ['/'].intercalate (pieces cs) = cs := by
  induction cs with
  | nil => rfl
  | cons c cs ih =>
      obtain ⟨piece, more, hps⟩ := List.exists_cons_of_ne_nil (pieces_ne_nil cs)
      rw [hps] at ih
      rw [pieces, hps]
      split
      next hc => rw [hc, ← ih]; rfl
      next hc =>
        rw [← ih]
        cases more <;> rfl

theorem pieces_inj {as bs : List Char} (h : pieces as = pieces bs) : as = bs := by
  rw [← intercalate_pieces as, h, intercalate_pieces]

/-- A text is cut where its pieces are. -/
theorem exists_of_pieces_eq_append {cs : List Char} {ps qs : List (List Char)} (hps : ps ≠ [])
    (hqs : qs ≠ []) (h : pieces cs = ps ++ qs) :
    ∃ as bs, cs = as ++ '/' :: bs ∧ pieces as = ps ∧ pieces bs = qs := by
  induction cs generalizing ps with
  | nil =>
      obtain ⟨p, ps, rfl⟩ := List.exists_cons_of_ne_nil hps
      obtain ⟨q, qs, rfl⟩ := List.exists_cons_of_ne_nil hqs
      simp [pieces] at h
  | cons c cs ih =>
      obtain ⟨piece, more, hmore⟩ := List.exists_cons_of_ne_nil (pieces_ne_nil cs)
      obtain ⟨p, ps, rfl⟩ := List.exists_cons_of_ne_nil hps
      rw [pieces, hmore] at h
      split at h
      next hc =>
        obtain ⟨rfl, hrest⟩ := List.cons.inj h
        cases ps with
        | nil => exact ⟨[], cs, by simp [hc], rfl, hmore.trans hrest⟩
        | cons p' ps =>
            obtain ⟨as, bs, hcs, has, hbs⟩ := ih (List.cons_ne_nil p' ps) (hmore.trans hrest)
            exact ⟨c :: as, bs, by simp [hcs], by simp [pieces, hc, has], hbs⟩
      next hc =>
        obtain ⟨rfl, hrest⟩ := List.cons.inj h
        obtain ⟨as, bs, hcs, has, hbs⟩ := ih (List.cons_ne_nil piece ps) (by rw [hmore, hrest]; rfl)
        exact ⟨c :: as, bs, by simp [hcs], by simp [pieces, hc, has], hbs⟩

/-- The number of characters of pieces, each with a slash behind it. -/
def extent : List (List Char) → Nat
  | [] => 0
  | piece :: rest => piece.length + 1 + extent rest

theorem extent_pieces (cs : List Char) : extent (pieces cs) = cs.length + 1 := by
  induction cs with
  | nil => rfl
  | cons c cs ih =>
      obtain ⟨piece, more, hmore⟩ := List.exists_cons_of_ne_nil (pieces_ne_nil cs)
      rw [pieces]
      split
      · rw [extent, ih, List.length_nil, List.length_cons, Nat.zero_add, Nat.add_comm]
      · rw [hmore] at ih ⊢
        simp only [extent, List.length_cons] at ih ⊢
        omega

theorem extent_append (ps qs : List (List Char)) : extent (ps ++ qs) = extent ps + extent qs := by
  induction ps with
  | nil => rw [List.nil_append, extent, Nat.zero_add]
  | cons piece ps ih =>
      rw [List.cons_append, extent, extent, ih]
      omega

theorem componentsFrom_append {ps : List (List Char)} (h : ps ≠ []) (isFirst : Bool) (start : Nat)
    (qs : List (List Char)) :
    componentsFrom isFirst start (ps ++ qs) =
      componentsFrom isFirst start ps ++ componentsFrom false (start + extent ps) qs := by
  induction ps generalizing isFirst start with
  | nil => exact absurd rfl h
  | cons piece ps ih =>
      have hextent : start + extent (piece :: ps) = start + piece.length + 1 + extent ps := by
        rw [extent]
        omega
      have htail : componentsFrom false (start + piece.length + 1) (ps ++ qs) =
          componentsFrom false (start + piece.length + 1) ps ++
            componentsFrom false (start + extent (piece :: ps)) qs := by
        rw [hextent]
        cases ps with
        | nil => rfl
        | cons next ps => exact ih (List.cons_ne_nil next ps) false _
      rw [List.cons_append, componentsFrom, componentsFrom, htail]
      cases stepOf? isFirst piece <;> rfl

/-- Pieces that lead nowhere make no component, unless one is a `.` in front. -/
theorem componentsFrom_of_core_eq_nil {ps : List (List Char)} (h : core ps = []) (start : Nat) :
    componentsFrom false start ps = [] := by
  induction ps generalizing start with
  | nil => rfl
  | cons piece ps ih =>
      rw [core, List.filter_cons] at h
      split at h
      next => cases h
      next hcounts =>
        have hnone : stepOf? false piece = none := by
          have hskip : piece = [] ∨ piece = ['.'] := by
            simpa [counts, Decidable.or_iff_not_imp_left] using hcounts
          rcases hskip with rfl | rfl <;> rfl
        rw [componentsFrom, hnone]
        exact ih h _

theorem exists_stepOf?_of_counts {piece : List Char} (h : counts piece = true) (isFirst : Bool) :
    ∃ s, stepOf? isFirst piece = some s ∧ s ≠ .root := by
  simp only [counts, Bool.and_eq_true, decide_eq_true_eq] at h
  unfold stepOf?
  rw [if_neg h.1, if_neg h.2]
  split
  · exact ⟨.up, rfl, by simp⟩
  · exact ⟨.name piece, rfl, by simp⟩

/-- The last of the pieces that lead on. -/
theorem exists_last_of_core_ne_nil {ps : List (List Char)} (h : core ps ≠ []) :
    ∃ before last after, ps = before ++ last :: after ∧ counts last = true ∧ core after = [] := by
  induction ps with
  | nil => exact absurd rfl h
  | cons piece ps ih =>
      by_cases hps : core ps = []
      · refine ⟨[], piece, ps, rfl, ?_, hps⟩
        rw [core, List.filter_cons] at h
        split at h
        next hcounts => exact hcounts
        next => exact absurd hps h
      · obtain ⟨before, last, after, rfl, hlast, hafter⟩ := ih hps
        exact ⟨piece :: before, last, after, rfl, hlast, hafter⟩

/-- The component that a piece at the end makes, after pieces that lead nowhere. -/
theorem exists_componentsFrom_eq {after : List (List Char)} (h : core after = [])
    {last : List Char} (hlast : counts last = true) (start : Nat) :
    ∃ c, componentsFrom false start (after ++ [last]) = [c] ∧ c.step ≠ .root := by
  obtain ⟨s, hs, hne⟩ := exists_stepOf?_of_counts hlast false
  cases after with
  | nil => exact ⟨_, by simp [componentsFrom, hs]; rfl, hne⟩
  | cons piece after =>
      rw [componentsFrom_append (List.cons_ne_nil piece after), componentsFrom_of_core_eq_nil h]
      exact ⟨_, by simp [componentsFrom, hs]; rfl, hne⟩

theorem parent?_of_components {p : Path} {before : List Component} {previous last : Component}
    (h : p.components = before ++ [previous, last]) (hlast : last.step ≠ .root) :
    p.parent? = some ⟨String.ofList (p.text.toList.take previous.stop)⟩ := by
  simp [parent?, h, hlast]

/-- The last component reaches to the end of a path whose last piece makes a step. -/
theorem exists_components_eq {p : Path} {init : List (List Char)} {last : List Char} {s : Step}
    (hp : pieces p.text.toList = init ++ [last]) (hs : stepOf? init.isEmpty last = some s) :
    ∃ before, p.components = before ++ [⟨s, p.text.toList.length⟩] := by
  have hlength := extent_pieces p.text.toList
  have hnamed : ∃ before, componentsFrom true 0 (pieces p.text.toList) =
      before ++ [⟨s, p.text.toList.length⟩] := by
    rw [hp, extent_append, extent, extent] at hlength
    have hlast : ∀ isFirst, stepOf? isFirst last = some s →
        componentsFrom isFirst (0 + extent init) [last] = [⟨s, p.text.toList.length⟩] := by
      intro isFirst hs
      have hstop : 0 + extent init + last.length = p.text.toList.length := by omega
      simp only [componentsFrom, hs, hstop]
    rw [hp]
    cases init with
    | nil => exact ⟨[], hlast true hs⟩
    | cons piece init =>
        refine ⟨componentsFrom true 0 (piece :: init), ?_⟩
        rw [componentsFrom_append (List.cons_ne_nil piece init), hlast false hs]
  obtain ⟨before, hnamed⟩ := hnamed
  unfold components
  split
  · exact ⟨_ :: before, by rw [hnamed]; rfl⟩
  · exact ⟨before, hnamed⟩

/-- The components of a path that is cut at a slash. -/
theorem components_cut {p : Path} {as bs : List Char} (h : p.text.toList = as ++ '/' :: bs)
    (has : as ≠ []) :
    p.components = (Path.mk (String.ofList as)).components ++
      componentsFrom false (as.length + 1) (pieces bs) := by
  have ha : p.isAbsolute = (Path.mk (String.ofList as)).isAbsolute := by
    obtain ⟨a, as, rfl⟩ := List.exists_cons_of_ne_nil has
    simp [isAbsolute, h]
  have hnamed : componentsFrom true 0 (pieces p.text.toList) =
      componentsFrom true 0 (pieces as) ++ componentsFrom false (as.length + 1) (pieces bs) := by
    rw [h, pieces_append_slash, componentsFrom_append (pieces_ne_nil as), extent_pieces,
      Nat.zero_add]
  unfold components
  rw [hnamed, ha]
  split <;> simp

/-- A path that is cut behind a piece that makes a step, and has one more step behind the cut. -/
theorem parent?_of_cut {p : Path} {as bs : List Char} (h : p.text.toList = as ++ '/' :: bs)
    {init : List (List Char)} {last : List Char} {s : Step} (has : pieces as = init ++ [last])
    (hs : stepOf? init.isEmpty last = some s) {c : Component}
    (hc : componentsFrom false (as.length + 1) (pieces bs) = [c]) (hroot : c.step ≠ .root) :
    p.parent? = some ⟨String.ofList as⟩ ∧
      (Path.mk (String.ofList as)).steps = p.steps.dropLast := by
  have hne : as ≠ [] := by
    rintro rfl
    obtain ⟨rfl, rfl⟩ : init = [] ∧ last = [] := by
      simpa [pieces, List.append_eq_singleton_iff, eq_comm] using has
    cases hs
  obtain ⟨before, hbefore⟩ := exists_components_eq (p := ⟨String.ofList as⟩)
    (by rw [String.toList_ofList, has]) hs
  rw [String.toList_ofList] at hbefore
  have hcomponents := components_cut h hne
  rw [hc] at hcomponents
  constructor
  · rw [hbefore, List.append_assoc] at hcomponents
    rw [parent?_of_components hcomponents hroot, h, List.take_left]
  · rw [steps, steps, hcomponents]
    simp

/-- **The parent of a path** that ends in a name or a `..` has all its steps but the last, and again
ends in one of these, unless it is empty, a `.` or the root. -/
theorem IsSolid.exists_parent {p : Path} (h : p.IsSolid) :
    ∃ parent, p.parent? = some parent ∧ parent.steps = p.steps.dropLast ∧
      (parent.IsSolid ∨ parent = ⟨""⟩ ∨ parent = ⟨"."⟩ ∨ parent = ⟨"/"⟩) := by
  obtain ⟨init, last, hp, hlast⟩ := h
  by_cases hinit : core init = []
  · cases init with
    | nil =>
        obtain ⟨s, hs, hroot⟩ := exists_stepOf?_of_counts hlast true
        have ha : ¬ p.isAbsolute = true := by
          intro ha
          rw [isAbsolute, decide_eq_true_eq] at ha
          obtain ⟨cs, hcs⟩ := List.head?_eq_some_iff.1 ha
          rw [hcs, pieces, if_pos rfl] at hp
          rw [← (List.cons.inj hp).1] at hlast
          cases hlast
        have hcomponents : p.components = [⟨s, last.length⟩] := by
          rw [components, if_neg ha, hp]
          simp [componentsFrom, hs]
        refine ⟨⟨""⟩, by simp [parent?, hcomponents, hroot], ?_, .inr (.inl rfl)⟩
        rw [steps, steps, hcomponents]
        rfl
    | cons piece init =>
        have hcut : pieces p.text.toList = [piece] ++ (init ++ [last]) := hp
        obtain ⟨as, bs, htext, has, hbs⟩ := exists_of_pieces_eq_append (by simp) (by simp) hcut
        obtain ⟨hpiece, hinit⟩ : (piece = [] ∨ piece = ['.']) ∧ core init = [] := by
          rw [core, List.filter_cons] at hinit
          split at hinit
          next => cases hinit
          next hcounts =>
            exact ⟨by simpa [counts, Decidable.or_iff_not_imp_left] using hcounts, hinit⟩
        obtain ⟨c, hc, hroot⟩ := exists_componentsFrom_eq hinit hlast (as.length + 1)
        rw [← hbs] at hc
        rcases hpiece with rfl | rfl
        · obtain rfl : as = [] := pieces_inj has
          have ha : p.isAbsolute = true := by simp [isAbsolute, htext]
          have hcomponents : p.components = [] ++ [⟨.root, 1⟩, c] := by
            rw [components, if_pos ha, htext]
            simpa [pieces, componentsFrom, stepOf?] using hc
          refine ⟨⟨"/"⟩, ?_, ?_, .inr (.inr (.inr rfl))⟩
          · rw [parent?_of_components hcomponents hroot, htext]
            rfl
          · rw [steps, steps, hcomponents]
            rfl
        · obtain rfl : as = ['.'] := pieces_inj has
          have has : pieces ['.'] = [] ++ [['.']] := has
          obtain ⟨hparent, hsteps⟩ := parent?_of_cut htext has rfl hc hroot
          exact ⟨_, hparent, hsteps, .inr (.inr (.inl rfl))⟩
  · obtain ⟨before, previous, after, rfl, hprevious, hafter⟩ := exists_last_of_core_ne_nil hinit
    have hcut : pieces p.text.toList = (before ++ [previous]) ++ (after ++ [last]) := by
      simpa using hp
    obtain ⟨as, bs, htext, has, hbs⟩ := exists_of_pieces_eq_append (by simp) (by simp) hcut
    obtain ⟨s, hs, -⟩ := exists_stepOf?_of_counts hprevious before.isEmpty
    obtain ⟨c, hc, hroot⟩ := exists_componentsFrom_eq hafter hlast (as.length + 1)
    obtain ⟨hparent, hsteps⟩ := parent?_of_cut htext has hs (by rw [hbs, hc]) hroot
    have hpieces : pieces (String.ofList as).toList = before ++ [previous] := by
      rw [String.toList_ofList, has]
    exact ⟨_, hparent, hsteps, .inl ⟨before, previous, hpieces, hprevious⟩⟩

end BlankLines.Path
