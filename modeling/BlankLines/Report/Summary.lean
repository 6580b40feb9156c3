import BlankLines.Check.Analysis

/-!
# Report — Summary

The totals of a run.

* `Summary.ofReports_append`: the totals of two runs together are the sums of theirs.
-/

namespace BlankLines

/-- What a run adds up to. -/
structure Summary where
  files : Nat := 0
  filesWithViolations : Nat := 0
  violations : Nat := 0
  missingSeparations : Nat := 0
  unnecessaryGaps : Nat := 0
  sourcesUnavailable : Nat := 0
deriving DecidableEq, Repr

namespace Summary

/-- Adds two summaries field by field. -/
def add (a b : Summary) : Summary where
  files := a.files + b.files
  filesWithViolations := a.filesWithViolations + b.filesWithViolations
  violations := a.violations + b.violations
  missingSeparations := a.missingSeparations + b.missingSeparations
  unnecessaryGaps := a.unnecessaryGaps + b.unnecessaryGaps
  sourcesUnavailable := a.sourcesUnavailable + b.sourcesUnavailable

instance : Add Summary := ⟨add⟩

/-- The summary of one report. -/
def ofReport (r : FileReport) : Summary where
  files := 1
  filesWithViolations := if r.isClean then 0 else 1
  violations := r.diagnostics.length
  missingSeparations := r.count .missingSeparation
  unnecessaryGaps := r.count .unnecessaryGap
  sourcesUnavailable := if r.sourceUnavailable then 1 else 0

/-- The summary of a run. -/
def ofReports : List FileReport → Summary
  | []        => {}
  | r :: rest => ofReport r + ofReports rest

/-- Whether anything was found. -/
def hasViolations (s : Summary) : Bool :=
  0 < s.violations

theorem add_def (a b : Summary) : a + b = a.add b := rfl

theorem zero_add (a : Summary) : {} + a = a := by
  simp [add_def, add]

theorem add_assoc (a b c : Summary) : a + b + c = a + (b + c) := by
  simp [add_def, add, Nat.add_assoc]

theorem ofReports_append (xs ys : List FileReport) :
    ofReports (xs ++ ys) = ofReports xs + ofReports ys := by
  induction xs with
  | nil => simp [ofReports, zero_add]
  | cons r rest ih => simp [ofReports, ih, add_assoc]

end Summary

end BlankLines
