import BlankLines.Config.Basic
import BlankLines.Error
import BlankLines.Glob.Match
import BlankLines.Glob.Parse

/-!
# Scan — Filter

Which paths are taken for trees: those with one of the extensions that no pattern excludes.

* `compileExcludes`: the patterns, or the first that is none.
* `Filter.includes`: the verdict on a path.
-/

namespace BlankLines

/-- Reads patterns in order; the first that is none is reported. -/
def readPatterns : List String → Except Error (List Glob.Pattern)
  | [] => .ok []
  | text :: rest => do
    let p ← (Glob.parse text).mapError fun f => Error.badPattern text (.unreadable text f)
    let ps ← readPatterns rest
    return p :: ps

/-- The number of the pattern that nests too deeply, counted among those that are compiled
together; a pattern that ends in an extension is compiled on its own. -/
def tooDeep? (patterns : List Glob.Pattern) : Option Nat :=
  let isDeep (p : Glob.Pattern) : Bool := Glob.nestingLimit < Glob.nesting p
  let compiled := patterns.filter fun p => !Glob.isSimple p
  let (single, together) := compiled.partition Glob.endsInExtension
  if single.any isDeep then some 0 else together.findIdx? isDeep

/-- Reads and compiles exclude patterns. -/
def compileExcludes (texts : List String) : Except Error (List Glob.Pattern) := do
  let patterns ← readPatterns texts
  match tooDeep? patterns with
  | some index => throw (.badPattern (", ".intercalate texts) (.tooDeep index))
  | none       => return patterns

/-- The extensions of trees, and the patterns of paths to leave out. -/
structure Filter where
  extensions : List (List Char)
  excludes : List Glob.Pattern

namespace Filter

/-- An extension without leading dots, in lower case as far as ASCII goes. -/
def normalExtension (e : String) : List Char :=
  (e.toList.dropWhile (· = '.')).map Char.toLower

/-- The filter that a configuration asks for. -/
def ofConfig (c : ScannerConfig) : Except Error Filter := do
  let excludes ← compileExcludes c.exclude
  return ⟨c.extensions.map normalExtension, excludes⟩

/-- Whether a path has one of the extensions, whatever the case of ASCII letters. -/
def hasExtension (f : Filter) (path : Path) : Bool :=
  path.extension?.any fun e => f.extensions.contains (e.map Char.toLower)

/-- Whether a path is taken for a tree. -/
def includes (f : Filter) (path : Path) : Bool :=
  f.hasExtension path && !f.excludes.any (Glob.isMatch · path.text)

end Filter

end BlankLines
