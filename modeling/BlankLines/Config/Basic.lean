import BlankLines.Check.Analysis

/-!
# Config — Basic

The configuration of a run.  Everything in it has a default.
-/

namespace BlankLines

/-- Which files are taken for trees. -/
structure ScannerConfig where
  /-- The extensions of trees. -/
  extensions : List String := ["json"]
  /-- Patterns of paths to leave out. -/
  exclude : List String := []
deriving DecidableEq, Repr, Inhabited

/-- The configuration of a run. -/
structure Config where
  version : Option String := none
  scanner : ScannerConfig := {}
  rules : Rules := {}
deriving DecidableEq, Repr, Inhabited

/-- The name of a configuration file in the current directory. -/
def Config.localName : Path := ⟨".blankline-guard.toml"⟩

end BlankLines
