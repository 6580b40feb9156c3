import BlankLines.Check.Analysis
import BlankLines.Error
import BlankLines.Tree.Decode

/-!
# Check — Files

Trees and source texts from disk, and the report on the tree in a file.

A tree that cannot be read is an error.  A source text that cannot be read is not: the report says
so, and the rule that needs the text is left out.
-/

namespace BlankLines
open Text (Lines)

variable {m : Type → Type} [Monad m]

/-- The tree that a text holds, which comes from `path`. -/
def SourceTree.ofFileText (path : Path) (text : String) : Except Error SourceTree :=
  (SourceTree.ofText text).mapError (.badTree path)

/-- The tree in a file. -/
def SourceTree.load (disk : Disk m) (path : Path) : m (Except Error SourceTree) := do
  match ← disk.readText path with
  | .ok text => return SourceTree.ofFileText path text
  | .error f => return .error (.unreadableFile path f)

/-- The lines of a file. -/
def Text.Lines.load (disk : Disk m) (path : Path) : m (Except Error Lines) := do
  match ← disk.readText path with
  | .ok text => return .ok (Lines.ofText text)
  | .error f => return .error (.unavailableSource path f)

/-- The lines of a file, if there is a path and it can be read. -/
def Text.Lines.load? (disk : Disk m) : Option Path → m (Option Lines)
  | none      => return none
  | some path => do return (← Lines.load disk path).toOption

/-- What the rules find in a tree that came from `path`. -/
def Rules.report (rules : Rules) (t : SourceTree) (lines? : Option Lines) (path : Path) :
    FileReport :=
  let source := t.sourcePath? path
  { tree := path
    source
    diagnostics := rules.analyze t lines? (source.getD path)
    sourceUnavailable := lines?.isNone }

/-- The report on the tree in a file. -/
def Rules.reportFile (rules : Rules) (disk : Disk m) (path : Path) :
    m (Except Error FileReport) := do
  match ← SourceTree.load disk path with
  | .error e => return .error e
  | .ok t =>
    let lines? ← Lines.load? disk (t.sourcePath? path)
    return .ok (rules.report t lines? path)

/-- The reports on the trees in several files; the first that cannot be read is the error. -/
def Rules.reportFiles (rules : Rules) (disk : Disk m) :
    List Path → m (Except Error (List FileReport))
  | [] => return .ok []
  | path :: rest => do
    match ← rules.reportFile disk path with
    | .error e => return .error e
    | .ok r =>
      match ← reportFiles rules disk rest with
      | .error e => return .error e
      | .ok rs => return .ok (r :: rs)

end BlankLines
