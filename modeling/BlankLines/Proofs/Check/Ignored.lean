import BlankLines.Proofs.Check.Spans

/-!
# Proofs — Check — bodies that are ignored

A clause, a simple statement and a declaration that is no function may hold a body, but own none, so
no walk enters it.

* `Statement.SameButIgnored`: two statements that differ at most in such bodies, at any depth; then
  the same of declarations and of trees.
* `analyze_of_sameButIgnored`: two such trees have the same analysis.

An ignored body can hold anything, also statements that own blocks with gaps in them.
-/

namespace BlankLines
open Text (Lines)

/-! ### Trees that differ in ignored bodies -/

namespace Statement

mutual

/-- Two statements are the same, but for bodies that are ignored. -/
inductive SameButIgnored : Statement → Statement → Prop
  /-- A clause or a simple statement may hold any body, or none. -/
  | ignored {kind : StatementKind} (hkind : kind = .clause ∨ kind = .simple) (span : Span)
      (body body' : Option (List Statement)) : SameButIgnored ⟨kind, span, body⟩ ⟨kind, span, body'⟩
  /-- The statements in a body may differ so, whatever holds the body. -/
  | within (kind : StatementKind) (span : Span) {body body' : Option (List Statement)} :
      BodySameButIgnored body body' → SameButIgnored ⟨kind, span, body⟩ ⟨kind, span, body'⟩

/-- Both bodies are missing, or both are there and the same but for what is ignored in them. -/
inductive BodySameButIgnored : Option (List Statement) → Option (List Statement) → Prop
  | none : BodySameButIgnored none none
  | some {block block' : List Statement} :
      BlockSameButIgnored block block' → BodySameButIgnored (some block) (some block')

/-- Two blocks are the same, statement by statement, but for what is ignored. -/
inductive BlockSameButIgnored : List Statement → List Statement → Prop
  | nil : BlockSameButIgnored [] []
  | cons {s s' : Statement} {rest rest' : List Statement} :
      SameButIgnored s s' → BlockSameButIgnored rest rest' →
        BlockSameButIgnored (s :: rest) (s' :: rest')

end

end Statement

/-- Two declarations are the same, but for bodies that are ignored. -/
inductive Declaration.SameButIgnored : Declaration → Declaration → Prop
  /-- A declaration that is no function may hold any body, or none. -/
  | ignored {kind : DeclarationKind} (hkind : kind ≠ .function) (span : Span)
      (body body' : Option Block) : SameButIgnored ⟨kind, span, body⟩ ⟨kind, span, body'⟩
  /-- The statements in a body may differ so, whatever holds the body. -/
  | within (kind : DeclarationKind) (span : Span) {body body' : Option Block} :
      Statement.BodySameButIgnored body body' →
        SameButIgnored ⟨kind, span, body⟩ ⟨kind, span, body'⟩

/-- Two trees have the same comments, and the same declarations but for bodies that are ignored. -/
structure SourceTree.SameButIgnored (t t' : SourceTree) : Prop where
  declarations : List.Forall₂ Declaration.SameButIgnored t.declarations t'.declarations
  comments : t'.comments = t.comments

/-! ### What the walks meet -/

namespace Statement

theorem SameButIgnored.span_eq {s s' : Statement} (h : s.SameButIgnored s') : s'.span = s.span := by
  cases h <;> rfl

theorem BlockSameButIgnored.map_span_head? {block block' : List Statement}
    (h : BlockSameButIgnored block block') :
    block'.head?.map span = block.head?.map span := by
  cases h with
  | nil => rfl
  | cons hs _ => simp [hs.span_eq]

mutual

theorem SameButIgnored.map_spans_ownedPairs : ∀ {s s' : Statement}, s.SameButIgnored s' →
    (ownedPairs s').map spans = (ownedPairs s).map spans
  | _, _, .ignored hkind span body body' => by
      rcases hkind with rfl | rfl <;> rfl
  | _, _, .within kind span hbody => by
      rw [ownedPairs, ownedPairs]
      split
      · exact hbody.map_spans_bodyPairs
      · rfl

theorem BodySameButIgnored.map_spans_bodyPairs : ∀ {body body' : Option (List Statement)},
    BodySameButIgnored body body' → (bodyPairs body').map spans = (bodyPairs body).map spans
  | _, _, .none => rfl
  | _, _, .some hblock => hblock.map_spans_pairs

/-- The pairs of a block, and of the blocks owned below, have the same spans in the same order. -/
theorem BlockSameButIgnored.map_spans_pairs : ∀ {block block' : List Statement},
    BlockSameButIgnored block block' → (pairs block').map spans = (pairs block).map spans
  | _, _, .nil => rfl
  | _, _, .cons hs hrest => by
      have hpair := map_spans_withNext hs.span_eq hrest.map_span_head?
      rw [pairs, pairs, List.map_append, List.map_append, List.map_append, List.map_append, hpair,
        hs.map_spans_ownedPairs, hrest.map_spans_pairs]

end

end Statement

namespace Declaration.SameButIgnored

variable {d d' : Declaration}

theorem span_eq (h : d.SameButIgnored d') : d'.span = d.span := by
  cases h <;> rfl

theorem map_spans_walkPairs (h : d.SameButIgnored d') :
    d'.walkPairs.map spans = d.walkPairs.map spans := by
  cases h with
  | ignored hkind span body body' =>
      -- no function, so no block to start a walk from
      have hnone : ∀ b, functionBody? ⟨_, span, b⟩ = none := fun b => by
        rw [functionBody?]
        split
        next h => exact absurd h hkind
        next => rfl
      rw [walkPairs, walkPairs, hnone, hnone]
  | within kind span hbody =>
      cases kind with
      | function => exact hbody.map_spans_bodyPairs
      | type | var | const | imports => rfl

end Declaration.SameButIgnored

/-- What two elements that belong together have in common, two lists of such have in common. -/
theorem map_eq_of_forall₂ {α β : Type} {R : α → α → Prop} {f : α → β}
    (hf : ∀ a b, R a b → f b = f a) {as bs : List α} (h : List.Forall₂ R as bs) :
    bs.map f = as.map f := by
  induction h with
  | nil => rfl
  | cons hab _ ih => rw [List.map_cons, List.map_cons, hf _ _ hab, ih]

namespace SourceTree.SameButIgnored

variable {t t' : SourceTree}

theorem map_span_declarations (h : t.SameButIgnored t') :
    t'.declarations.map Declaration.span = t.declarations.map Declaration.span :=
  map_eq_of_forall₂ (fun _ _ hd => hd.span_eq) h.declarations

theorem map_spans_walkPairs (h : t.SameButIgnored t') :
    t'.walkPairs.map spans = t.walkPairs.map spans := by
  rw [walkPairs_eq_flatMap, walkPairs_eq_flatMap, List.map_flatMap, List.map_flatMap,
    List.flatMap_def, List.flatMap_def,
    map_eq_of_forall₂ (fun _ _ hd => hd.map_spans_walkPairs) h.declarations]

end SourceTree.SameButIgnored

/-- **Ignored bodies never matter.**  Take away, replace or add the body of any number of
declarations that are no functions, and of clauses and simple statements at any depth.  Whatever
those bodies hold, the analysis finds what it found before, for every text and under all rules. -/
theorem Rules.analyze_of_sameButIgnored {t t' : SourceTree} (h : t.SameButIgnored t')
    (rules : Rules) (lines? : Option Lines) (path : Path) :
    rules.analyze t' lines? path = rules.analyze t lines? path :=
  analyze_of_spans h.map_span_declarations h.map_spans_walkPairs h.comments rules lines? path

/-- A branch with a gap in the block it owns. -/
def gappedBranch : Statement where
  kind := .branch
  span := .lines 4 7
  body := some [{ kind := .simple, span := .lines 5 5 }, { kind := .simple, span := .lines 7 7 }]

/-- A function with a switch and a gap behind it, and a variable; the one clause of the switch and
the variable hold what is given. -/
def clauseTree (inClause inVariable : Option Block) : SourceTree where
  declarations :=
    [{ kind := .function
       span := .lines 1 12
       body := some
        [{ kind := .switch
           span := .lines 2 8
           body := some [{ kind := .clause, span := .lines 3 8, body := inClause }] },
          { kind := .simple, span := .lines 10 10 }] },
      { kind := .var, span := .lines 14 20, body := inVariable }]

theorem analyze_of_sameButIgnored_clause :
    (clauseTree none none).SameButIgnored
        (clauseTree (some [gappedBranch]) (some [gappedBranch])) ∧
      Rules.analyze {} (clauseTree (some [gappedBranch]) (some [gappedBranch])) none ⟨"main.go"⟩ =
        [.new ⟨"main.go"⟩ ⟨9, 1⟩ .unnecessaryGap] := by
  have hsame : (clauseTree none none).SameButIgnored
      (clauseTree (some [gappedBranch]) (some [gappedBranch])) := by
    refine ⟨.cons (.within .function _ (.some ?_)) (.cons (.ignored ?_ _ _ _) .nil), rfl⟩
    · refine .cons (.within .switch _ (.some ?_)) (.cons (.within .simple _ .none) .nil)
      exact .cons (.ignored (.inl rfl) _ _ _) .nil
    · decide
  refine ⟨hsame, ?_⟩
  rw [Rules.analyze_of_sameButIgnored hsame]
  decide +kernel

end BlankLines
