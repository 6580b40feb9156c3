import BlankLines.Check.Analysis
import BlankLines.Proofs.Check.Separation

/-!
# Proofs — Check — the parts of an analysis

An analysis threads one reporter through both rules.  Here it is taken apart again.

* `SourceTree.walkPairs`: the pairs of statements that the statement rule meets in a file.
* `analyze_eq_append`: the diagnostics of a file are those of its declarations and then those of its
  statements; of the text, only the first part knows.
* `filter_missingSeparation_analyze`, `filter_unnecessaryGap_analyze`: the parts are told from each
  other by what they complain about.
-/

namespace BlankLines
open Text (Lines)

/-- The pairs of statements that the walks over the functions of a file meet, in their order. -/
def SourceTree.walkPairs (t : SourceTree) : List (Statement × Statement) :=
  t.functionBodies.flatMap pairs

theorem checkStatements_eq_append (policy : StatementPolicy) (comments : CommentLines)
    (t : SourceTree) (r : Reporter) :
    checkStatements policy comments t r =
      r.append (t.walkPairs.filterMap (pairDiagnostic? policy comments r.file)) := by
  rw [checkStatements, SourceTree.walkPairs]
  induction t.functionBodies generalizing r with
  | nil => simp
  | cons block blocks ih =>
      rw [List.foldl_cons, ih, checkBlock_eq_append, Reporter.file_append, Reporter.append_append,
        ← List.filterMap_append, List.flatMap_cons]

namespace Rules

/-- What an analysis says about the declarations of a file. -/
def declarationPart (rules : Rules) (t : SourceTree) (lines? : Option Lines) (path : Path) :
    List Diagnostic :=
  if rules.declarationSpacing then
    lines?.elim [] fun lines =>
      (unseparated lines t.declarations).map (separationDiagnostic path)
  else []

/-- What an analysis says about the statements of a file. -/
def statementPart (rules : Rules) (t : SourceTree) (path : Path) : List Diagnostic :=
  if rules.statementSpacing then
    t.walkPairs.filterMap (pairDiagnostic? rules.statementPolicy (.ofComments t.comments) path)
  else []

theorem runDeclarations_eq_append (rules : Rules) (t : SourceTree) (lines? : Option Lines)
    (r : Reporter) :
    rules.runDeclarations t lines? r = r.append (rules.declarationPart t lines? r.file) := by
  unfold runDeclarations declarationPart
  split
  · cases lines? with
    | none => simp
    | some lines => exact checkDeclarations_eq_append lines t.declarations r
  · simp

theorem runStatements_eq_append (rules : Rules) (t : SourceTree) (r : Reporter) :
    rules.runStatements t r = r.append (rules.statementPart t r.file) := by
  unfold runStatements statementPart
  split
  · exact checkStatements_eq_append _ _ t r
  · simp

/-- **The parts of an analysis**: the declarations first, then the statements. -/
theorem analyze_eq_append (rules : Rules) (t : SourceTree) (lines? : Option Lines) (path : Path) :
    rules.analyze t lines? path =
      rules.declarationPart t lines? path ++ rules.statementPart t path := by
  rw [analyze, runDeclarations_eq_append, runStatements_eq_append, Reporter.append_append,
    Reporter.toList_append]
  rfl

theorem declarationPart_of_on {rules : Rules} (h : rules.declarationSpacing = true)
    (t : SourceTree) (lines : Lines) (path : Path) :
    rules.declarationPart t (some lines) path =
      (unseparated lines t.declarations).map (separationDiagnostic path) := by
  rw [declarationPart, if_pos h, Option.elim]

theorem declarationSpacing_of_mem_declarationPart {rules : Rules} {t : SourceTree}
    {lines? : Option Lines} {path : Path} {d : Diagnostic}
    (h : d ∈ rules.declarationPart t lines? path) : rules.declarationSpacing = true := by
  unfold declarationPart at h
  split at h
  next hon => exact hon
  next => cases h

/-- With the declaration rule off, or without a text, only the statements are left. -/
theorem analyze_eq_statementPart {rules : Rules} {lines? : Option Lines}
    (h : rules.declarationSpacing = false ∨ lines? = none) (t : SourceTree) (path : Path) :
    rules.analyze t lines? path = rules.statementPart t path := by
  rw [analyze_eq_append]
  rcases h with h | rfl
  · simp [declarationPart, h]
  · simp [declarationPart]

theorem analyze_eq_declarationPart {rules : Rules} (h : rules.statementSpacing = false)
    (t : SourceTree) (lines? : Option Lines) (path : Path) :
    rules.analyze t lines? path = rules.declarationPart t lines? path := by
  simp [analyze_eq_append, statementPart, h]

/-- What is said about declarations names the file and complains about a missing separation. -/
theorem exists_of_mem_declarationPart {rules : Rules} {t : SourceTree} {lines? : Option Lines}
    {path : Path} {d : Diagnostic} (h : d ∈ rules.declarationPart t lines? path) :
    ∃ p : Position, d = .new path p .missingSeparation := by
  unfold declarationPart at h
  split at h
  · cases lines? with
    | none => cases h
    | some lines =>
        obtain ⟨p, -, rfl⟩ := List.mem_map.1 h
        exact ⟨p.2.span.start, rfl⟩
  · cases h

/-- What is said about statements names the file and complains about a gap. -/
theorem exists_of_mem_statementPart {rules : Rules} {t : SourceTree} {path : Path}
    {d : Diagnostic} (h : d ∈ rules.statementPart t path) :
    ∃ p : Position, d = .new path p .unnecessaryGap := by
  unfold statementPart at h
  split at h
  · obtain ⟨p, -, hp⟩ := List.mem_filterMap.1 h
    obtain ⟨position, -, rfl⟩ := Option.map_eq_some_iff.1 hp
    exact ⟨position, rfl⟩
  · cases h

theorem violation_of_mem_declarationPart {rules : Rules} {t : SourceTree} {lines? : Option Lines}
    {path : Path} {d : Diagnostic} (h : d ∈ rules.declarationPart t lines? path) :
    d.violation = .missingSeparation := by
  obtain ⟨p, rfl⟩ := exists_of_mem_declarationPart h
  rfl

theorem violation_of_mem_statementPart {rules : Rules} {t : SourceTree} {path : Path}
    {d : Diagnostic} (h : d ∈ rules.statementPart t path) : d.violation = .unnecessaryGap := by
  obtain ⟨p, rfl⟩ := exists_of_mem_statementPart h
  rfl

/-- All that an analysis finds is about the file it is told about. -/
theorem file_of_mem_analyze {rules : Rules} {t : SourceTree} {lines? : Option Lines} {path : Path}
    {d : Diagnostic} (h : d ∈ rules.analyze t lines? path) : d.file = path := by
  rw [analyze_eq_append, List.mem_append] at h
  rcases h with h | h
  · obtain ⟨p, rfl⟩ := exists_of_mem_declarationPart h
    rfl
  · obtain ⟨p, rfl⟩ := exists_of_mem_statementPart h
    rfl

/-- Of diagnostics that all complain about one thing, a filter keeps all or none. -/
theorem filter_violation {ds : List Diagnostic} {v : Violation} (h : ∀ d ∈ ds, d.violation = v)
    (w : Violation) : ds.filter (·.violation = w) = if v = w then ds else [] := by
  split
  next hv => exact List.filter_eq_self.2 fun d hd => by simp [h d hd, hv]
  next hv => exact List.filter_eq_nil_iff.2 fun d hd => by simp [h d hd, hv]

theorem filter_missingSeparation_analyze (rules : Rules) (t : SourceTree) (lines? : Option Lines)
    (path : Path) :
    (rules.analyze t lines? path).filter (·.violation = .missingSeparation) =
      rules.declarationPart t lines? path := by
  rw [analyze_eq_append, List.filter_append,
    filter_violation fun _ => violation_of_mem_declarationPart,
    filter_violation fun _ => violation_of_mem_statementPart]
  simp

theorem filter_unnecessaryGap_analyze (rules : Rules) (t : SourceTree) (lines? : Option Lines)
    (path : Path) :
    (rules.analyze t lines? path).filter (·.violation = .unnecessaryGap) =
      rules.statementPart t path := by
  rw [analyze_eq_append, List.filter_append,
    filter_violation fun _ => violation_of_mem_declarationPart,
    filter_violation fun _ => violation_of_mem_statementPart]
  simp

end Rules

end BlankLines
