import BlankLines.Check.Declarations
import BlankLines.Proofs.Check.Walk

/-!
# Proofs — Check — separation without bounds

The declaration rule computes with words that stop at their ends, and looks no further than the
text goes.  Here is the same rule with neither: every line strictly between two declarations, in
numbers without bound.

* `Separated`: a blank line stands strictly between two declarations.
* `hasBlankBetween_iff_separated`: neither the words nor the end of the text change a verdict.
* `checkDeclarations_exact`: the diagnostics are the neighbours that nothing separates, in order.
-/

namespace BlankLines
open Text (Lines)

/-! ### The rule without bounds -/

/-- A blank line stands strictly between two declarations. -/
def Separated (lines : Lines) (d next : Declaration) : Prop :=
  ∃ n : Nat, n < next.span.firstLine.toNat ∧ d.span.lastLine.toNat < n ∧ lines.isBlank n = true

instance (lines : Lines) (d next : Declaration) : Decidable (Separated lines d next) :=
  inferInstanceAs (Decidable (∃ n, n < _ ∧ _))

/-- The declarations that follow each other, in order. -/
def neighbours (ds : List Declaration) : List (Declaration × Declaration) :=
  ds.zip ds.tail

theorem getElem?_neighbours {ds : List Declaration} {i : Nat} {d next : Declaration} :
    (neighbours ds)[i]? = some (d, next) ↔ ds[i]? = some d ∧ ds[i + 1]? = some next := by
  rw [neighbours, List.getElem?_zip_eq_some, List.getElem?_tail]

@[simp] theorem neighbours_cons (d next : Declaration) (rest : List Declaration) :
    neighbours (d :: next :: rest) = (d, next) :: neighbours (next :: rest) := rfl

/-! ### The bounds never show -/

/-- A blank line is a line of the text, and no declaration ends on the last line there could be
and has another after it; so what stops the words and the search leaves no blank line out. -/
theorem hasBlankBetween_iff_separated (lines : Lines) (d next : Declaration) :
    hasBlankBetween lines d next = true ↔ Separated lines d next := by
  have hfirst : next.span.firstLine.toNat < UInt64.size := next.span.firstLine.toNat_lt
  have hmem : ∀ n, n ∈ linesBetween lines d next ↔
      min (d.span.lastLine.toNat + 1) (UInt64.size - 1) ≤ n ∧
        n ≤ next.span.firstLine.toNat - 1 ∧ n ≤ lines.size := by
    intro n
    rw [mem_linesBetween, Declaration.lineAfter, Declaration.lineBefore, LineNumber.toNat_after,
      LineNumber.toNat_before]
  simp only [hasBlankBetween, List.any_eq_true, hmem, Separated]
  constructor
  · rintro ⟨n, ⟨hlow, hhigh, hsize⟩, hblank⟩
    -- there is no line zero to be blank
    have hn : n ≠ 0 := by
      rintro rfl
      simp at hblank
    exact ⟨n, by omega, by omega, hblank⟩
  · rintro ⟨n, hhigh, hlow, hblank⟩
    have hsize : n ≤ lines.size := Nat.le_of_not_lt fun h => by
      simp [Lines.not_isBlank_of_size_lt h] at hblank
    exact ⟨n, ⟨by omega, by omega, hsize⟩, hblank⟩

/-! ### A list of declarations -/

/-- What is said about a declaration that is not separated from the one before it. -/
def separationDiagnostic (file : Path) (p : Declaration × Declaration) : Diagnostic :=
  .new file p.2.span.start .missingSeparation

/-- The declarations that nothing separates from the one before them, each with that one. -/
def unseparated (lines : Lines) (ds : List Declaration) : List (Declaration × Declaration) :=
  (neighbours ds).filter fun p => ¬ Separated lines p.1 p.2

theorem unseparated_cons (lines : Lines) (d next : Declaration) (rest : List Declaration) :
    unseparated lines (d :: next :: rest) =
      if Separated lines d next then unseparated lines (next :: rest)
      else (d, next) :: unseparated lines (next :: rest) := by
  rw [unseparated, neighbours_cons, List.filter_cons]
  by_cases h : Separated lines d next <;> simp [h, unseparated]

theorem checkDeclarations_eq_append (lines : Lines) (ds : List Declaration) (r : Reporter) :
    checkDeclarations lines ds r =
      r.append ((unseparated lines ds).map (separationDiagnostic r.file)) := by
  induction ds generalizing r with
  | nil => simp [unseparated, neighbours]
  | cons d rest ih =>
      cases rest with
      | nil => simp [unseparated, neighbours]
      | cons next rest =>
          rw [checkDeclarations, unseparated_cons]
          by_cases h : Separated lines d next
          · rw [if_pos ((hasBlankBetween_iff_separated lines d next).2 h), if_pos h, ih]
          · rw [if_neg fun hb => h ((hasBlankBetween_iff_separated lines d next).1 hb), if_neg h,
              ih, Reporter.report_eq_append]
            simp [separationDiagnostic]

/-- **Declarations are checked exactly.**  What the rule adds to a reporter is one diagnostic for
each index at which no blank line stands strictly between a declaration and the next, in the order
of the indices and at the place where the next one starts, and nothing else.  The lines between are
counted without bound, so neither the ends of the words nor the end of the text matter. -/
theorem checkDeclarations_exact (lines : Lines) (ds : List Declaration) (r : Reporter) :
    (∀ (i : Nat) (d next : Declaration),
      (neighbours ds)[i]? = some (d, next) ↔ ds[i]? = some d ∧ ds[i + 1]? = some next) ∧
    (checkDeclarations lines ds r).file = r.file ∧
    (checkDeclarations lines ds r).toList = r.toList ++
      ((neighbours ds).filter fun p => ¬ Separated lines p.1 p.2).map fun p =>
        .new r.file p.2.span.start .missingSeparation := by
  refine ⟨fun _ _ _ => getElem?_neighbours, ?_, ?_⟩
  · rw [checkDeclarations_eq_append, Reporter.file_append]
  · rw [checkDeclarations_eq_append, Reporter.toList_append]
    rfl

end BlankLines
