import BlankLines.Path

/-!
# Files — Disk

What the program asks of the files around it, in any monad, and the ways in which that can fail.
-/

namespace BlankLines

/-- Why an operation on a file fails. -/
inductive IoFault where
  | notFound
  | alreadyExists
  | notDirectory
  | isDirectory
  | notText
  | nulInPath
  | other (text : String)
deriving DecidableEq, Repr

/-- The wording of a failure. -/
def IoFault.message : IoFault → String
  | .notFound      => "No such file or directory (os error 2)"
  | .alreadyExists => "File exists (os error 17)"
  | .notDirectory  => "Not a directory (os error 20)"
  | .isDirectory   => "Is a directory (os error 21)"
  | .notText       => "stream did not contain valid UTF-8"
  | .nulInPath     => "file name contained an unexpected NUL byte"
  | .other text    => text

/-- What a walk can come to. -/
inductive FileKind where
  | regular
  | directory
  | other
deriving DecidableEq, Repr

/-- What a walk has come to. -/
structure Met where
  path : Path
  kind : FileKind
deriving DecidableEq, Repr

/-- The files as the program sees them. -/
structure Disk (m : Type → Type) where
  /-- The text of a file. -/
  readText : Path → m (Except IoFault String)
  /-- Whether there is a file or directory. -/
  isPresent : Path → m Bool
  /-- The files of every kind that a walk comes to at and below a path: a directory, and then its
  entries in the order of their names.  Where it cannot go on it comes to a fault. -/
  filesUnder : Path → m (List (Except IoFault Met))
  /-- The current directory, if it is known. -/
  currentDir : m (Option Path)
  /-- The directory of the user's own configuration, if there is one. -/
  configDir : m (Option Path)

end BlankLines
