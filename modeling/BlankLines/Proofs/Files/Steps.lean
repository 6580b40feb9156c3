import BlankLines.Path

/-!
# Proofs — Files — the steps of a path

A path is cut at its slashes, and each piece makes a step or none.  Here that is said without the
offsets that components carry, and followed through `Path.join`.

* `steps_eq`: the steps of a path are those of its pieces, after the root if it is absolute.
* `exists_pieces_join`: the pieces of a joined path are those of the base, up to an empty one at its end,
  and then those of what follows.
* `steps_join_name`: joining a name adds one step.
* `steps_eq_anchor_append`: a path without `..` is determined by how it starts and its names.
-/

namespace BlankLines.Path

/-! ### Pieces -/

theorem pieces_ne_nil : ∀ cs : List Char, pieces cs ≠ []
  | []        => by simp [pieces]
  | c :: rest => by
      simp only [pieces]
      split
      · simp
      · split <;> simp

theorem pieces_append_slash (as bs : List Char) :
    pieces (as ++ '/' :: bs) = pieces as ++ pieces bs := by
  induction as with
  | nil => simp [pieces]
  | cons a as ih =>
      by_cases ha : a = '/'
      · simp [pieces, ha, ih]
      · cases h : pieces as with
        | nil => exact absurd h (pieces_ne_nil as)
        | cons piece more => simp [pieces, ha, ih, h]

/-- A text without slashes is one piece. -/
theorem pieces_of_not_mem {cs : List Char} (h : '/' ∉ cs) : pieces cs = [cs] := by
  induction cs with
  | nil => rfl
  | cons c cs ih =>
      rw [List.mem_cons, not_or] at h
      simp [pieces, Ne.symm h.1, ih h.2]

/-! ### Steps of pieces -/

/-- The steps of pieces; `isFirst` tells whether the path starts with them. -/
def stepsFrom (isFirst : Bool) : List (List Char) → List Step
  | []            => []
  | piece :: rest => (stepOf? isFirst piece).toList ++ stepsFrom false rest

theorem map_step_componentsFrom (isFirst : Bool) (start : Nat) (ps : List (List Char)) :
    (componentsFrom isFirst start ps).map Component.step = stepsFrom isFirst ps := by
  induction ps generalizing isFirst start with
  | nil => rfl
  | cons piece rest ih =>
      simp only [componentsFrom, stepsFrom]
      cases stepOf? isFirst piece with
      | none => simpa using ih false _
      | some step => simpa using ih false _

theorem steps_eq (p : Path) :
    p.steps =
      (if p.isAbsolute then [.root] else []) ++ stepsFrom true (pieces p.text.toList) := by
  unfold steps components
  split <;> simp [map_step_componentsFrom]

/-- The name of the file a path leads to is its last step. -/
theorem fileName?_eq_some_iff {p : Path} {n : List Char} :
    p.fileName? = some n ↔ p.steps.getLast? = some (.name n) := by
  rw [steps, List.getLast?_map, fileName?]
  cases p.components.getLast? with
  | none => simp
  | some c =>
      obtain ⟨step, stop⟩ := c
      cases step <;> simp

theorem stepsFrom_append {ps : List (List Char)} (h : ps ≠ []) (isFirst : Bool)
    (qs : List (List Char)) :
    stepsFrom isFirst (ps ++ qs) = stepsFrom isFirst ps ++ stepsFrom false qs := by
  induction ps generalizing isFirst with
  | nil => exact absurd rfl h
  | cons piece rest ih =>
      cases rest with
      | nil => simp [stepsFrom]
      | cons next rest =>
          rw [List.cons_append, stepsFrom, ih (by simp), ← List.append_assoc]
          rfl

/-- An empty piece makes no step. -/
@[simp] theorem stepsFrom_empty (isFirst : Bool) : stepsFrom isFirst [[]] = [] := by
  simp [stepsFrom, stepOf?]

/-! ### Joined paths -/

/-- What a file or a directory may be called. -/
def IsName (cs : List Char) : Prop :=
  cs ≠ [] ∧ cs ≠ ['.'] ∧ cs ≠ ['.', '.'] ∧ '/' ∉ cs

instance (cs : List Char) : Decidable (IsName cs) :=
  inferInstanceAs (Decidable (_ ∧ _))

theorem IsName.stepOf? {cs : List Char} (h : IsName cs) (isFirst : Bool) :
    stepOf? isFirst cs = some (.name cs) := by
  obtain ⟨h₁, h₂, h₃, -⟩ := h
  simp [Path.stepOf?, h₁, h₂, h₃]

theorem IsName.not_isAbsolute {n : String} (h : IsName n.toList) :
    ¬ (Path.mk n).isAbsolute = true := by
  obtain ⟨-, -, -, hs⟩ := h
  intro ha
  rw [isAbsolute, decide_eq_true_eq] at ha
  exact hs (List.mem_of_mem_head? ha)

/-- A base that is not empty, with a slash after it unless it ends in one: the text before that
slash, and whether the base has the slash itself. -/
theorem exists_join_eq {base : Path} (hb : base.text.toList ≠ []) :
    ∃ before : List Char, (base.text.toList = before ∨ base.text.toList = before ++ ['/']) ∧
      ∀ next : Path, ¬ next.isAbsolute = true →
        (base.join next).text.toList = before ++ '/' :: next.text.toList := by
  obtain ⟨init, c, hc⟩ : ∃ init c, base.text.toList = init ++ [c] :=
    ⟨_, _, (List.dropLast_concat_getLast hb).symm⟩
  by_cases hs : c = '/'
  · refine ⟨init, .inr (by rw [hc, hs]), fun next hn => ?_⟩
    simp [join, hn, hc, hs]
  · refine ⟨base.text.toList, .inl rfl, fun next hn => ?_⟩
    simp [join, hn, hc]

/-- The pieces of a path joined to a base are those of the base, but for an empty one at its end,
and then its own. -/
theorem exists_pieces_join {base : Path} (hb : base.text.toList ≠ []) :
    ∃ ps : List (List Char), ps ≠ [] ∧
      (pieces base.text.toList = ps ∨ pieces base.text.toList = ps ++ [[]]) ∧
      ∀ next : Path, ¬ next.isAbsolute = true →
        pieces (base.join next).text.toList = ps ++ pieces next.text.toList := by
  obtain ⟨before, hbefore, hjoin⟩ := exists_join_eq hb
  refine ⟨pieces before, pieces_ne_nil before, ?_, fun next hn => ?_⟩
  · rcases hbefore with h | h
    · exact .inl (by rw [h])
    · exact .inr (by rw [h, pieces_append_slash]; rfl)
  · rw [hjoin next hn, pieces_append_slash]

theorem isAbsolute_join {base next : Path} (hb : base.text.toList ≠ [])
    (hn : ¬ next.isAbsolute = true) : (base.join next).isAbsolute = base.isAbsolute := by
  obtain ⟨before, hbefore, hjoin⟩ := exists_join_eq hb
  -- only the root has nothing before its slash
  have hne : before = [] → base.text.toList = ['/'] := by
    rintro rfl
    exact hbefore.resolve_left hb
  rw [isAbsolute, isAbsolute, hjoin next hn]
  cases before with
  | nil => simp [hne rfl]
  | cons c cs => rcases hbefore with h | h <;> simp [h]

/-- Joining a name adds a step to it. -/
theorem steps_join_name (p : Path) {n : String} (h : IsName n.toList) :
    (p.join ⟨n⟩).steps = p.steps ++ [.name n.toList] := by
  have hpiece : pieces n.toList = [n.toList] := pieces_of_not_mem h.2.2.2
  by_cases hp : p.text.toList = []
  · -- an empty base gives way to the name, which then comes first
    have hj : p.join ⟨n⟩ = ⟨n⟩ := by simp [join, hp]
    have hr : ¬ p.isAbsolute = true := by simp [isAbsolute, hp]
    rw [hj, steps_eq, steps_eq, if_neg h.not_isAbsolute, if_neg hr, hp, hpiece,
      show pieces [] = [[]] from rfl, stepsFrom_empty]
    simp [stepsFrom, h.stepOf?]
  · obtain ⟨ps, hne, hps, hjoin⟩ := exists_pieces_join hp
    have hbase : stepsFrom true (pieces p.text.toList) = stepsFrom true ps := by
      rcases hps with hps | hps
      · rw [hps]
      · rw [hps, stepsFrom_append hne, stepsFrom_empty, List.append_nil]
    rw [steps_eq, steps_eq p, isAbsolute_join hp h.not_isAbsolute, hbase,
      hjoin ⟨n⟩ h.not_isAbsolute, stepsFrom_append hne, hpiece]
    simp [stepsFrom, h.stepOf?]

/-! ### How a path starts, and its names -/

/-- The text of a step that is a name. -/
def Step.name? : Step → Option (List Char)
  | .name text => some text
  | _          => none

/-- How a path starts: at the root, with a `.`, or with neither. -/
def anchor (p : Path) : Option Step :=
  p.steps.head?.filter fun s => s = .root || s = .here

/-- The names in a path. -/
def names (p : Path) : List (List Char) :=
  p.steps.filterMap Step.name?

theorem stepOf?_false (piece : List Char) :
    stepOf? false piece = none ∨ stepOf? false piece = some .up ∨
      stepOf? false piece = some (.name piece) := by
  unfold stepOf?
  split
  · exact .inl rfl
  · split
    · exact .inl rfl
    · split
      · exact .inr (.inl rfl)
      · exact .inr (.inr rfl)

/-- Steps without `..` after the first piece are names. -/
theorem stepsFrom_eq_map_name {ps : List (List Char)} (h : .up ∉ stepsFrom false ps) :
    stepsFrom false ps = ((stepsFrom false ps).filterMap Step.name?).map .name := by
  induction ps with
  | nil => rfl
  | cons piece rest ih =>
      rw [stepsFrom] at h ⊢
      rw [List.mem_append, not_or] at h
      rw [List.filterMap_append, List.map_append, ← ih h.2]
      congr 1
      rcases stepOf?_false piece with hp | hp | hp
      · rw [hp]
        rfl
      · exact absurd (by simp [hp]) h.1
      · rw [hp]
        rfl

/-- A path starts at the root, with a `.` or with neither, and goes on in pieces among which a `.`
does not count. -/
theorem exists_steps_eq (p : Path) :
    ∃ (start : Option Step) (ps : List (List Char)),
      p.steps = start.toList ++ stepsFrom false ps ∧
        (p.isAbsolute = true ∧ start = some .root ∨
          ¬ p.isAbsolute = true ∧ (start = none ∨ start = some .here)) := by
  rw [steps_eq]
  by_cases ha : p.isAbsolute = true
  · obtain ⟨cs, hcs⟩ : ∃ cs, p.text.toList = '/' :: cs := by
      rw [isAbsolute, decide_eq_true_eq] at ha
      exact List.head?_eq_some_iff.1 ha
    exact ⟨some .root, pieces cs, by simp [ha, hcs, pieces, stepsFrom, stepOf?], .inl ⟨ha, rfl⟩⟩
  · obtain ⟨piece, rest, hps⟩ := List.exists_cons_of_ne_nil (pieces_ne_nil p.text.toList)
    by_cases hd : piece = ['.']
    · exact ⟨some .here, rest, by simp [ha, hps, hd, stepsFrom, stepOf?], .inr ⟨ha, .inr rfl⟩⟩
    · exact ⟨none, piece :: rest, by simp [ha, hps, hd, stepsFrom, stepOf?], .inr ⟨ha, .inl rfl⟩⟩

/-- **A path without `..`** is how it starts and its names, and it starts at the root exactly if it
is absolute. -/
theorem steps_eq_anchor_append {p : Path} (h : .up ∉ p.steps) :
    p.steps = p.anchor.toList ++ p.names.map .name ∧
      (p.anchor = some .root ↔ p.isAbsolute = true) := by
  obtain ⟨start, ps, hs, hstart⟩ := exists_steps_eq p
  rw [hs, List.mem_append, not_or] at h
  rw [stepsFrom_eq_map_name h.2] at hs
  generalize (stepsFrom false ps).filterMap Step.name? = ns at hs
  have hns : (ns.map Step.name).filterMap Step.name? = ns := by
    rw [List.filterMap_map]
    exact List.filterMap_some
  have ha : p.anchor = start := by
    rw [anchor, hs]
    rcases hstart with ⟨-, rfl⟩ | ⟨-, rfl | rfl⟩
    · rfl
    · cases ns <;> rfl
    · rfl
  have hn : p.names = ns := by
    rw [names, hs, List.filterMap_append, hns]
    rcases hstart with ⟨-, rfl⟩ | ⟨-, rfl | rfl⟩ <;> rfl
  refine ⟨by rw [ha, hn, hs], ?_⟩
  rw [ha]
  rcases hstart with ⟨h', rfl⟩ | ⟨h', rfl | rfl⟩ <;> simp [h']

/-- Adding names changes neither how a path starts nor whether there is a `..`. -/
theorem anchor_of_steps_eq {p q : Path} {ns : List (List Char)}
    (h : q.steps = p.steps ++ ns.map .name) :
    q.anchor = p.anchor ∧ (.up ∈ q.steps ↔ .up ∈ p.steps) := by
  refine ⟨?_, by simp [h]⟩
  rw [anchor, anchor, h]
  cases p.steps with
  | cons s rest => rfl
  | nil => cases ns <;> rfl

end BlankLines.Path
