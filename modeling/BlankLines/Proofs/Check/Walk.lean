import BlankLines.Check.Statements

/-!
# Proofs — Check — the walk over a block

The statement rule threads one reporter through a block and every block owned below it.  Here the
walk is taken apart: which pairs of statements it meets, and what it adds for each of them.

* `pairs`: the adjacent pairs of a block and of the blocks owned below it, in the order of the walk;
  `pairs_eq_flatMap_range` says the same by index.
* `checkBlock_eq_append`: a walk adds the diagnostics of its pairs at the end and touches nothing
  else.

A pair is met before the block its first statement owns, and that block before the next pair.
-/

namespace BlankLines

/-! ### Adding to a reporter -/

namespace Reporter

/-- Adds several diagnostics at the end. -/
def append (r : Reporter) (ds : List Diagnostic) : Reporter :=
  { r with found := r.found ++ ds.toArray }

@[simp] theorem append_nil (r : Reporter) : r.append [] = r := by
  simp [append]

@[simp] theorem file_append (r : Reporter) (ds : List Diagnostic) :
    (r.append ds).file = r.file := rfl

@[simp] theorem toList_append (r : Reporter) (ds : List Diagnostic) :
    (r.append ds).toList = r.toList ++ ds := by
  simp [append, toList]

@[simp] theorem append_append (r : Reporter) (ds es : List Diagnostic) :
    (r.append ds).append es = r.append (ds ++ es) := by
  simp [append]

theorem report_eq_append (r : Reporter) (v : Violation) (p : Position) :
    r.report v p = r.append [.new r.file p v] := by
  simp [report, append]

end Reporter

/-! ### The pairs of a walk -/

/-- The kinds of statements through which a block is owned. -/
def StatementKind.owning : List StatementKind :=
  [.branch, .loop, .range, .switch, .typeSwitch, .select, .block]

theorem StatementKind.ownsBlock_iff_mem_owning (k : StatementKind) :
    k.ownsBlock = true ↔ k ∈ owning := by
  cases k <;> decide

/-- A block is owned through a kind that owns one, when it is there. -/
theorem Statement.owned?_eq_some_iff {s : Statement} {block : Block} :
    s.owned? = some block ↔ s.kind ∈ StatementKind.owning ∧ s.body = some block := by
  rw [owned?, ← StatementKind.ownsBlock_iff_mem_owning]
  cases s.kind.ownsBlock <;> simp

/-- A statement paired with the one after it, if there is one. -/
def withNext (s : Statement) : Option Statement → List (Statement × Statement)
  | none      => []
  | some next => [(s, next)]

mutual

/-- The pairs met in the block a statement owns. -/
def ownedPairs : Statement → List (Statement × Statement)
  | ⟨kind, _, body⟩ => if kind ∈ StatementKind.owning then bodyPairs body else []

/-- The pairs met in a block if there is one. -/
def bodyPairs : Option (List Statement) → List (Statement × Statement)
  | none       => []
  | some block => pairs block

/-- The pairs met in a block: each statement with the next, then what the statement owns. -/
def pairs : List Statement → List (Statement × Statement)
  | []        => []
  | s :: rest => withNext s rest.head? ++ (ownedPairs s ++ pairs rest)

end

theorem ownedPairs_eq (s : Statement) : ownedPairs s = (s.owned?.elim [] pairs) := by
  obtain ⟨kind, span, body⟩ := s
  by_cases h : kind ∈ StatementKind.owning
  · have h' := (StatementKind.ownsBlock_iff_mem_owning kind).2 h
    cases body <;> simp [ownedPairs, bodyPairs, Statement.owned?, h, h']
  · have h' : ¬ kind.ownsBlock = true := mt (StatementKind.ownsBlock_iff_mem_owning kind).1 h
    simp [ownedPairs, Statement.owned?, h, h']

/-- The walk by index: for `i` from zero on, the statement at `i` with the one at `i + 1`, then the
pairs of the block that the statement at `i` owns. -/
theorem pairs_eq_flatMap_range (block : Block) :
    pairs block = (List.range block.length).flatMap fun i =>
      (block[i]?.elim [] fun s => withNext s block[i + 1]?) ++
        (block[i]?.bind Statement.owned?).elim [] pairs := by
  induction block with
  | nil => rfl
  | cons s rest ih =>
      -- the first index stands for `s`, and the others are those of `rest` moved up by one
      rw [pairs, ih, List.length_cons, List.range_succ_eq_map, List.flatMap_cons,
        List.flatMap_map, ownedPairs_eq, ← List.append_assoc]
      simp [List.head?_eq_getElem?]

/-! ### What a walk adds -/

/-- The diagnostic about a pair, if there is one. -/
def pairDiagnostic? (policy : StatementPolicy) (comments : CommentLines) (file : Path)
    (p : Statement × Statement) : Option Diagnostic :=
  (gapPosition? policy comments p.1 p.2).map fun position =>
    .new file position .unnecessaryGap

theorem checkPair_eq_append (policy : StatementPolicy) (comments : CommentLines) (s : Statement)
    (next? : Option Statement) (r : Reporter) :
    checkPair policy comments s next? r =
      r.append ((withNext s next?).filterMap (pairDiagnostic? policy comments r.file)) := by
  cases next? with
  | none => simp [checkPair, withNext]
  | some next =>
      cases h : gapPosition? policy comments s next with
      | none => simp [checkPair, withNext, pairDiagnostic?, h]
      | some position =>
          simp [checkPair, withNext, pairDiagnostic?, h, Reporter.report_eq_append]

mutual

theorem checkOwned_eq_append (policy : StatementPolicy) (comments : CommentLines) :
    ∀ (s : Statement) (r : Reporter), checkOwned policy comments s r =
      r.append ((ownedPairs s).filterMap (pairDiagnostic? policy comments r.file))
  | ⟨kind, _, body⟩, r => by
      by_cases h : kind ∈ StatementKind.owning
      · have h' := (StatementKind.ownsBlock_iff_mem_owning kind).2 h
        simp only [checkOwned, ownedPairs, h, h', if_true]
        exact checkBody_eq_append policy comments body r
      · have h' : ¬ kind.ownsBlock = true := mt (StatementKind.ownsBlock_iff_mem_owning kind).1 h
        simp [checkOwned, ownedPairs, h, h']

theorem checkBody_eq_append (policy : StatementPolicy) (comments : CommentLines) :
    ∀ (body : Option (List Statement)) (r : Reporter), checkBody policy comments body r =
      r.append ((bodyPairs body).filterMap (pairDiagnostic? policy comments r.file))
  | none, r => by simp [checkBody, bodyPairs]
  | some block, r => by
      simp only [checkBody, bodyPairs]
      exact checkBlock_eq_append policy comments block r

/-- **The walk only adds.**  What a walk over a block does to a reporter is to add, at the end and
in the order of the walk, the diagnostics of the pairs it meets. -/
theorem checkBlock_eq_append (policy : StatementPolicy) (comments : CommentLines) :
    ∀ (block : List Statement) (r : Reporter), checkBlock policy comments block r =
      r.append ((pairs block).filterMap (pairDiagnostic? policy comments r.file))
  | [], r => by simp [checkBlock, pairs]
  | s :: rest, r => by
      simp only [checkBlock, pairs, List.filterMap_append]
      rw [checkPair_eq_append, checkOwned_eq_append policy comments s,
        checkBlock_eq_append policy comments rest]
      simp

end

end BlankLines
