import BlankLines.Tree.Basic

/-!
# Check — Diagnostic

What the rules complain about, and the list of complaints about one file.

* `Violation`: the two rules' complaints, with the rule's id and the message.
* `Diagnostic.new`: a diagnostic, which is stamped with the message of its violation.
* `Reporter.report`: adds a diagnostic at the end; nothing is removed or merged.
-/

namespace BlankLines

/-- What a rule complains about. -/
inductive Violation where
  /-- Two top-level declarations without a blank line between them. -/
  | missingSeparation
  /-- A blank line between two statements. -/
  | unnecessaryGap
deriving DecidableEq, Repr

namespace Violation

/-- Every violation, in the order of the rules. -/
def all : List Violation :=
  [.missingSeparation, .unnecessaryGap]

/-- The name of a violation. -/
def name : Violation → String
  | .missingSeparation => "missing_decl_separation"
  | .unnecessaryGap    => "unnecessary_statement_gap"

/-- The id of the rule that reports it. -/
def ruleId : Violation → String
  | .missingSeparation => "blankline/decl-separation"
  | .unnecessaryGap    => "blankline/statement-gap"

/-- The message that reports it. -/
def message : Violation → String
  | .missingSeparation => "top-level declarations should be separated by a blank line"
  | .unnecessaryGap    => "unnecessary blank line between statements"

end Violation

/-- A violation at a place in a file. -/
structure Diagnostic where
  file : Path
  line : UInt64
  column : UInt64
  violation : Violation
  /-- What is printed, in every format. -/
  message : String := violation.message
  stamped : message = violation.message := by rfl
deriving DecidableEq, Repr

namespace Diagnostic

/-- A violation at a position, with its message. -/
def new (file : Path) (position : Position) (violation : Violation) : Diagnostic :=
  { file, line := position.line, column := position.column, violation }

variable (file : Path) (position : Position) (violation : Violation)

@[simp] theorem file_new : (new file position violation).file = file := rfl

@[simp] theorem line_new : (new file position violation).line = position.line := rfl

@[simp] theorem column_new : (new file position violation).column = position.column := rfl

@[simp] theorem violation_new : (new file position violation).violation = violation := rfl

/-- The message tells no more than the rest. -/
theorem eq_new (d : Diagnostic) : d = new d.file ⟨d.line, d.column⟩ d.violation := by
  obtain ⟨file, line, column, violation, message, rfl⟩ := d
  rfl

/-- The place of a diagnostic, as `file:line:column`. -/
def location (d : Diagnostic) : String :=
  d.file.text ++ ":" ++ toString d.line.toNat ++ ":" ++ toString d.column.toNat

/-- A diagnostic as one line. -/
def text (d : Diagnostic) : String :=
  d.location ++ ": " ++ d.message

end Diagnostic

/-- The diagnostics about one file, in the order they were found. -/
structure Reporter where
  file : Path
  found : Array Diagnostic := #[]
deriving DecidableEq, Repr

namespace Reporter

/-- Adds a diagnostic at the end. -/
def report (r : Reporter) (violation : Violation) (position : Position) : Reporter :=
  { r with found := r.found.push (.new r.file position violation) }

/-- The diagnostics in order. -/
def toList (r : Reporter) : List Diagnostic :=
  r.found.toList

@[simp] theorem file_report (r : Reporter) (violation : Violation) (position : Position) :
    (r.report violation position).file = r.file := rfl

@[simp] theorem toList_report (r : Reporter) (violation : Violation) (position : Position) :
    (r.report violation position).toList = r.toList ++ [.new r.file position violation] := by
  simp [report, toList]

end Reporter

end BlankLines
