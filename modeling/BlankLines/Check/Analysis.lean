import BlankLines.Check.Declarations
import BlankLines.Check.Statements

/-!
# Check — Analysis

Both rules over one file, and what came of it.

* `analyze`: the declarations' diagnostics, then the statements'.
* `FileReport`: the diagnostics of a tree, with where its text was looked for.
-/

namespace BlankLines
open Text (Lines)

/-- Which rules are on. -/
structure Rules where
  declarationSpacing : Bool := true
  statementSpacing : Bool := true
  statementPolicy : StatementPolicy := .commentAware
deriving DecidableEq, Repr, Inhabited

/-- Whether any rule is on. -/
def Rules.anyEnabled (rules : Rules) : Bool :=
  rules.declarationSpacing || rules.statementSpacing

/-- Runs the declaration rule if it is on and there is a text to look at. -/
def Rules.runDeclarations (rules : Rules) (t : SourceTree) (lines? : Option Lines)
    (r : Reporter) : Reporter :=
  if rules.declarationSpacing then
    match lines? with
    | some lines => checkDeclarations lines t.declarations r
    | none       => r
  else r

/-- Runs the statement rule if it is on. -/
def Rules.runStatements (rules : Rules) (t : SourceTree) (r : Reporter) : Reporter :=
  if rules.statementSpacing then
    checkStatements rules.statementPolicy (.ofComments t.comments) t r
  else r

/-- The diagnostics of a file, which they call `path`. -/
def Rules.analyze (rules : Rules) (t : SourceTree) (lines? : Option Lines) (path : Path) :
    List Diagnostic :=
  (rules.runStatements t (rules.runDeclarations t lines? { file := path })).toList

/-- The diagnostics of a file under the default rules, which call it by its own source path. -/
def SourceTree.analyze (t : SourceTree) (lines? : Option Lines) : List Diagnostic :=
  Rules.analyze {} t lines? (t.source.getD ⟨""⟩)

/-- What was found in one tree. -/
structure FileReport where
  tree : Path
  source : Option Path
  diagnostics : List Diagnostic
  sourceUnavailable : Bool := false
deriving DecidableEq, Repr

namespace FileReport

/-- The path a report goes by: that of the source text if the tree names one. -/
def displayPath (r : FileReport) : Path :=
  r.source.getD r.tree

/-- Whether nothing was found. -/
def isClean (r : FileReport) : Bool :=
  r.diagnostics.isEmpty

/-- How often a violation was found. -/
def count (r : FileReport) (v : Violation) : Nat :=
  r.diagnostics.countP (·.violation = v)

end FileReport

end BlankLines
