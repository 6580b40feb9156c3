import BlankLines.Proofs.Check.Spans

/-!
# Proofs — Check — blocks around statements

Blocks put around statements leave the spans along a walk as they were: a block has the span of what
it holds, and its one statement has no neighbour in it.

* `SourceTree.wrap`: a tree with any number of blocks around each of its statements.
* `analyze_wrap`: the analysis of such a tree is that of the tree itself.
-/

namespace BlankLines
open Text (Lines)

/-! ### Blocks around one statement -/

namespace Statement

@[simp] theorem span_wrapped (s : Statement) (count : Nat) : (s.wrapped count).span = s.span := by
  cases count <;> rfl

/-- A block around a statement owns what the statement owns, as far as pairs go. -/
theorem ownedPairs_wrapped (s : Statement) (count : Nat) :
    ownedPairs (s.wrapped count) = ownedPairs s := by
  induction count with
  | zero => rfl
  | succ count ih =>
      simp [wrapped, ownedPairs, StatementKind.owning, bodyPairs, pairs, withNext, ih]

/-! ### Blocks around every statement -/

mutual

/-- The statement at a place with blocks put around it, and around the statements below it: as many
as `count` says of their places.  The places below a place are numbered behind it. -/
def wrap (count : List Nat → Nat) (place : List Nat) : Statement → Statement
  | ⟨kind, span, body⟩ => wrapped ⟨kind, span, wrapBody count place body⟩ (count place)

/-- The block at a place, if there is one, with blocks put around its statements. -/
def wrapBody (count : List Nat → Nat) (place : List Nat) :
    Option (List Statement) → Option (List Statement)
  | none       => none
  | some block => some (wrapBlock count place 0 block)

/-- The statements of a block from number `i` on, with blocks put around them. -/
def wrapBlock (count : List Nat → Nat) (place : List Nat) : Nat → List Statement → List Statement
  | _, []        => []
  | i, s :: rest => wrap count (place ++ [i]) s :: wrapBlock count place (i + 1) rest

end

variable (count : List Nat → Nat)

@[simp] theorem span_wrap (place : List Nat) (s : Statement) :
    (s.wrap count place).span = s.span := by
  cases s
  rw [wrap, span_wrapped]

theorem map_span_head?_wrapBlock (place : List Nat) (i : Nat) (block : Block) :
    (wrapBlock count place i block).head?.map span = block.head?.map span := by
  cases block <;> simp [wrapBlock]

mutual

theorem map_spans_ownedPairs_wrap : ∀ (place : List Nat) (s : Statement),
    (ownedPairs (s.wrap count place)).map spans = (ownedPairs s).map spans
  | place, ⟨kind, span, body⟩ => by
      rw [wrap, ownedPairs_wrapped, ownedPairs, ownedPairs]
      split
      · exact map_spans_bodyPairs_wrapBody place body
      · rfl

theorem map_spans_bodyPairs_wrapBody : ∀ (place : List Nat) (body : Option (List Statement)),
    (bodyPairs (wrapBody count place body)).map spans = (bodyPairs body).map spans
  | _, none => rfl
  | place, some block => map_spans_pairs_wrapBlock place 0 block

/-- The pairs of a block, and of the blocks owned below, keep their spans and their order. -/
theorem map_spans_pairs_wrapBlock : ∀ (place : List Nat) (i : Nat) (block : List Statement),
    (pairs (wrapBlock count place i block)).map spans = (pairs block).map spans
  | _, _, [] => rfl
  | place, i, s :: rest => by
      have hpair := map_spans_withNext (span_wrap count (place ++ [i]) s)
        (map_span_head?_wrapBlock count place (i + 1) rest)
      rw [wrapBlock, pairs, pairs, List.map_append, List.map_append, List.map_append,
        List.map_append, hpair, map_spans_ownedPairs_wrap, map_spans_pairs_wrapBlock]

end

end Statement

/-! ### Blocks around the statements of a file -/

/-- A declaration with blocks put around the statements of its body, whatever its kind. -/
def Declaration.wrap (count : List Nat → Nat) (place : List Nat) (d : Declaration) : Declaration :=
  { d with body := Statement.wrapBody count place d.body }

/-- A tree with blocks put around its statements.  A place starts with the number of the
declaration. -/
def SourceTree.wrap (count : List Nat → Nat) (t : SourceTree) : SourceTree :=
  { t with declarations := t.declarations.mapIdx fun i d => d.wrap count [i] }

variable (count : List Nat → Nat)

/-- What a numbered change leaves alone in every element, it leaves alone in the list. -/
theorem map_mapIdx_of_forall {α β : Type} {f : Nat → α → α} {g : α → β}
    (h : ∀ i a, g (f i a) = g a) (as : List α) : (as.mapIdx f).map g = as.map g :=
  List.ext_getElem (by simp) fun i _ _ => by simp [h]

theorem Declaration.map_spans_walkPairs_wrap (place : List Nat) (d : Declaration) :
    (d.wrap count place).walkPairs.map spans = d.walkPairs.map spans := by
  obtain ⟨kind, span, body⟩ := d
  cases kind with
  | function => exact Statement.map_spans_bodyPairs_wrapBody count place body
  | type | var | const | imports => rfl

theorem SourceTree.map_spans_walkPairs_wrap (t : SourceTree) :
    (t.wrap count).walkPairs.map spans = t.walkPairs.map spans := by
  rw [walkPairs_eq_flatMap, walkPairs_eq_flatMap, List.map_flatMap, List.map_flatMap,
    List.flatMap_def, List.flatMap_def, wrap,
    map_mapIdx_of_forall fun i d => d.map_spans_walkPairs_wrap count [i]]

/-- **Blocks around statements change nothing.**  Put any number of blocks around any of the
statements of a file, each with the span of the statement and nothing else in it.  The analysis
finds what it found before, in the same order and at the same places, whatever the text, the
comments and the rules. -/
theorem Rules.analyze_wrap (rules : Rules) (t : SourceTree) (lines? : Option Lines) (path : Path)
    (count : List Nat → Nat) :
    rules.analyze (t.wrap count) lines? path = rules.analyze t lines? path := by
  have hspans : (t.wrap count).declarations.map Declaration.span =
      t.declarations.map Declaration.span :=
    map_mapIdx_of_forall (f := fun i d => d.wrap count [i]) (fun _ _ => rfl) t.declarations
  have hstatements : rules.statementPart (t.wrap count) path = rules.statementPart t path :=
    statementPart_of_spans (t.map_spans_walkPairs_wrap count) rfl rules path
  rw [analyze_eq_append, analyze_eq_append, declarationPart_congr hspans rfl, hstatements]

end BlankLines
