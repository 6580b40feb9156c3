import BlankLines.Check.Diagnostic
import BlankLines.Check.LineNumber
import BlankLines.Text.Lines

/-!
# Check — Declarations

The rule for top-level declarations: between two that follow each other there is a blank line.

Only the spans and the text count.  The lines between two declarations are cut to those the text
has, so that no line number, however large, makes the check long.
-/

namespace BlankLines
open Text (Lines)

/-- The first line after a declaration. -/
def Declaration.lineAfter (d : Declaration) : UInt64 :=
  LineNumber.after d.span.lastLine

/-- The last line before a declaration. -/
def Declaration.lineBefore (d : Declaration) : UInt64 :=
  LineNumber.before d.span.firstLine

/-- The lines between two declarations that the text has. -/
def linesBetween (lines : Lines) (d next : Declaration) : List Nat :=
  let first := d.lineAfter.toNat
  let last := min next.lineBefore.toNat lines.size
  List.range' first (last + 1 - first)

/-- Whether a line between two declarations is blank. -/
def hasBlankBetween (lines : Lines) (d next : Declaration) : Bool :=
  (linesBetween lines d next).any lines.isBlank

/-- Reports every declaration that no blank line separates from the one before it. -/
def checkDeclarations (lines : Lines) : List Declaration → Reporter → Reporter
  | d :: next :: rest, r =>
    checkDeclarations lines (next :: rest) <|
      if hasBlankBetween lines d next then r else r.report .missingSeparation next.span.start
  | _, r => r

theorem mem_linesBetween {lines : Lines} {d next : Declaration} {n : Nat} :
    n ∈ linesBetween lines d next ↔
      d.lineAfter.toNat ≤ n ∧ n ≤ next.lineBefore.toNat ∧ n ≤ lines.size := by
  simp only [linesBetween, List.mem_range'_1]
  omega

@[simp] theorem checkDeclarations_nil (lines : Lines) (r : Reporter) :
    checkDeclarations lines [] r = r := rfl

@[simp] theorem checkDeclarations_singleton (lines : Lines) (d : Declaration) (r : Reporter) :
    checkDeclarations lines [d] r = r := rfl

end BlankLines
