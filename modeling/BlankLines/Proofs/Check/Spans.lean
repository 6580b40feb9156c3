import BlankLines.Proofs.Check.Independence
import BlankLines.Proofs.Check.Nesting

/-!
# Proofs — Check — the spans of a walk

Of a pair of statements the statement rule sees the two spans, and of a declaration the other rule
sees the span.  So whatever is done to a tree goes unnoticed as long as the declarations stand where
they stood and the walks meet pairs with the same spans in the same order.

* `map_spans_withNext`: a pair of statements with the same spans.
* `Rules.analyze_of_spans`: the same spans along the walks give the same analysis.
-/

namespace BlankLines
open Text (Lines)

/-- The spans of two statements. -/
def spans (p : Statement × Statement) : Span × Span :=
  (p.1.span, p.2.span)

/-- What is said about a pair is said about its spans. -/
theorem filterMap_pairDiagnostic?_of_spans (policy : StatementPolicy) (comments : CommentLines)
    (file : Path) {ps qs : List (Statement × Statement)} (h : qs.map spans = ps.map spans) :
    qs.filterMap (pairDiagnostic? policy comments file) =
      ps.filterMap (pairDiagnostic? policy comments file) := by
  have hspans : pairDiagnostic? policy comments file =
      (fun p => pairDiagnostic? policy comments file (⟨.simple, p.1, none⟩, ⟨.simple, p.2, none⟩))
        ∘ spans := rfl
  rw [hspans, ← List.filterMap_map, h, List.filterMap_map]

theorem map_spans_withNext {s s' : Statement} {next? next?' : Option Statement}
    (hs : s'.span = s.span) (hnext : next?'.map Statement.span = next?.map Statement.span) :
    (withNext s' next?').map spans = (withNext s next?).map spans := by
  cases next? <;> cases next?' <;> simp_all [withNext, spans]

namespace Rules

variable {t t' : SourceTree}

theorem statementPart_of_spans (hspans : t'.walkPairs.map spans = t.walkPairs.map spans)
    (hcomments : t'.comments = t.comments) (rules : Rules) (path : Path) :
    rules.statementPart t' path = rules.statementPart t path := by
  rw [statementPart, statementPart, hcomments, filterMap_pairDiagnostic?_of_spans _ _ _ hspans]

/-- **What an analysis sees of a tree**: the spans of the declarations, the spans of the pairs that
the walks meet, and the comments. -/
theorem analyze_of_spans
    (hdeclarations : t'.declarations.map Declaration.span = t.declarations.map Declaration.span)
    (hpairs : t'.walkPairs.map spans = t.walkPairs.map spans)
    (hcomments : t'.comments = t.comments) (rules : Rules) (lines? : Option Lines) (path : Path) :
    rules.analyze t' lines? path = rules.analyze t lines? path := by
  rw [analyze_eq_append, analyze_eq_append, declarationPart_congr hdeclarations rfl,
    statementPart_of_spans hpairs hcomments]

end Rules

end BlankLines
