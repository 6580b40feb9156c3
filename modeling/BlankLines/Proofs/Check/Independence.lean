import BlankLines.Proofs.Check.Analysis

/-!
# Proofs — Check — the rules apart

Both rules write to one reporter, and the statement rule runs on what the declaration rule has left
there.  Neither sees the other: what an analysis finds of one kind stays the same, in the same
order, whatever is done to the input of the other rule.

* `declarationPart_congr`: of a file the declaration rule sees the spans of the declarations.
* `analyze_independent`: the findings of one kind, over two runs that differ in everything the rule
  of the other kind looks at.
-/

namespace BlankLines
open Text (Lines)

/-- What is said about declarations that stand at the given spans. -/
def spanDiagnostics (lines : Lines) (file : Path) (spans : List Span) : List Diagnostic :=
  ((spans.zip spans.tail).filter fun p =>
    ¬ ∃ n, n < p.2.firstLine.toNat ∧ p.1.lastLine.toNat < n ∧ lines.isBlank n = true).map fun p =>
      .new file p.2.start .missingSeparation

theorem map_unseparated (lines : Lines) (file : Path) (ds : List Declaration) :
    (unseparated lines ds).map (separationDiagnostic file) =
      spanDiagnostics lines file (ds.map Declaration.span) := by
  rw [spanDiagnostics, ← List.map_tail, List.zip_map, List.filter_map, List.map_map]
  rfl

namespace Rules

/-- Of a file the declaration rule sees the spans of the declarations, of the rules its own
setting. -/
theorem declarationPart_congr {rules rules' : Rules} {t t' : SourceTree}
    (hspans : t'.declarations.map Declaration.span = t.declarations.map Declaration.span)
    (hon : rules'.declarationSpacing = rules.declarationSpacing) (lines? : Option Lines)
    (path : Path) :
    rules'.declarationPart t' lines? path = rules.declarationPart t lines? path := by
  simp only [declarationPart, map_unseparated, hspans, hon]

/-- Of a file the statement rule sees the declarations and the comments, of the rules its own
setting and the policy. -/
theorem statementPart_congr {rules rules' : Rules} {t t' : SourceTree}
    (hdeclarations : t'.declarations = t.declarations) (hcomments : t'.comments = t.comments)
    (hon : rules'.statementSpacing = rules.statementSpacing)
    (hpolicy : rules'.statementPolicy = rules.statementPolicy) (path : Path) :
    rules'.statementPart t' path = rules.statementPart t path := by
  simp only [statementPart, SourceTree.walkPairs, SourceTree.functionBodies, hdeclarations,
    hcomments, hon, hpolicy]

/-- What an analysis finds of one kind, in order. -/
def found (rules : Rules) (t : SourceTree) (lines? : Option Lines) (path : Path) (v : Violation) :
    List Diagnostic :=
  (rules.analyze t lines? path).filter (·.violation = v)

theorem found_missingSeparation (rules : Rules) (t : SourceTree) (lines? : Option Lines)
    (path : Path) :
    rules.found t lines? path .missingSeparation = rules.declarationPart t lines? path :=
  rules.filter_missingSeparation_analyze t lines? path

theorem found_unnecessaryGap (rules : Rules) (t : SourceTree) (lines? : Option Lines)
    (path : Path) : rules.found t lines? path .unnecessaryGap = rules.statementPart t path :=
  rules.filter_unnecessaryGap_analyze t lines? path

/-- **The rules are independent.**  An analysis is what it finds about declarations and then what it
finds about statements.
* A rule that is off finds nothing, and neither does the declaration rule without a text.
* Runs over the same text and spans of declarations, with the declaration rule on in both or in
  neither, find the same about declarations.
* Runs over the same declarations and comments, with the statement rule on in both or in neither and
  under the same policy, find the same about statements, whatever the texts.
* So to turn a rule off, or to lose the text, removes what that rule finds and nothing else. -/
theorem analyze_independent (rules rules' : Rules) (t t' : SourceTree)
    (lines? lines?' : Option Lines) (path : Path) :
    (rules.analyze t lines? path =
      rules.found t lines? path .missingSeparation ++ rules.found t lines? path .unnecessaryGap) ∧
    (rules.declarationSpacing = false ∨ lines? = none →
      rules.found t lines? path .missingSeparation = []) ∧
    (rules.statementSpacing = false → rules.found t lines? path .unnecessaryGap = []) ∧
    (t'.declarations.map Declaration.span = t.declarations.map Declaration.span →
      rules'.declarationSpacing = rules.declarationSpacing →
        rules'.found t' lines? path .missingSeparation =
          rules.found t lines? path .missingSeparation) ∧
    (t'.declarations = t.declarations → t'.comments = t.comments →
      rules'.statementSpacing = rules.statementSpacing →
      rules'.statementPolicy = rules.statementPolicy →
        rules'.found t' lines?' path .unnecessaryGap =
          rules.found t lines? path .unnecessaryGap) ∧
    ({ rules with declarationSpacing := false }.analyze t lines? path =
      rules.found t lines? path .unnecessaryGap) ∧
    rules.analyze t none path = rules.found t lines? path .unnecessaryGap ∧
    { rules with statementSpacing := false }.analyze t lines? path =
      rules.found t lines? path .missingSeparation := by
  simp only [found_missingSeparation, found_unnecessaryGap]
  refine ⟨rules.analyze_eq_append t lines? path, ?_, fun h => by simp [statementPart, h],
    fun hspans hon => declarationPart_congr hspans hon lines? path,
    fun hd hc hon hp => statementPart_congr hd hc hon hp path, ?_, ?_, ?_⟩
  · rintro (h | rfl) <;> simp [declarationPart, *]
  · exact analyze_eq_statementPart (.inl rfl) t path
  · exact analyze_eq_statementPart (.inr rfl) t path
  · exact analyze_eq_declarationPart rfl t lines? path

/-- Two functions that no blank line separates, the first with a gap in its body. -/
def bodiedTree : SourceTree where
  declarations :=
    [{ kind := .function
       span := .lines 1 5
       body := some
        [{ kind := .simple, span := .lines 2 2 }, { kind := .simple, span := .lines 4 4 }] },
      { kind := .function, span := .lines 6 8, body := some [] }]
  comments := [{ line := 7 }]

/-- Declarations with the same spans and nothing else in common. -/
def bareTree : SourceTree where
  declarations := [{ kind := .type, span := .lines 1 5 }, { kind := .var, span := .lines 6 8 }]

theorem analyze_independent_bodied :
    let lines : Lines := .ofText "f()\n  a()\n\n  b()\nend\ng()\n  // nothing\nend\n"
    (Rules.found { statementPolicy := .strict } bareTree (some lines) ⟨"main.go"⟩
        .missingSeparation = [.new ⟨"main.go"⟩ ⟨6, 1⟩ .missingSeparation]) ∧
      Rules.found { declarationSpacing := false } bodiedTree none ⟨"main.go"⟩ .unnecessaryGap =
        [.new ⟨"main.go"⟩ ⟨3, 1⟩ .unnecessaryGap] := by
  intro lines
  obtain ⟨-, -, -, hd, -⟩ := analyze_independent {} { statementPolicy := .strict } bodiedTree
    bareTree (some lines) none ⟨"main.go"⟩
  obtain ⟨-, -, -, -, hs, -⟩ := analyze_independent {} { declarationSpacing := false } bodiedTree
    bodiedTree (some lines) none ⟨"main.go"⟩
  refine ⟨(hd rfl rfl).trans ?_, (hs rfl rfl rfl rfl).trans ?_⟩ <;> decide +kernel

end Rules

end BlankLines
