import BlankLines.Command.Parse
import BlankLines.Command.Plan
import BlankLines.Files.Memory

/-!
# Command — Run

Carrying out a plan in a file system in memory.

* `Plan.run`: notes first; then what is to be saved; and only if that succeeds, what is printed.
* `CommandLine.runIn`: a command line from plan to outcome.
-/

namespace BlankLines

/-- What a run depends on besides its command line and the files. -/
structure Surroundings where
  /-- Whether it prints to a terminal. -/
  terminal : Bool := false
  /-- How the writing of a text breaks off, if it does. -/
  break? : Option Break := none
  /-- What the reader of TOML says of a document that is not TOML. -/
  malformed : String := Toml.malformedWords
deriving DecidableEq, Repr

/-- What a run leaves behind. -/
structure Outcome where
  exitCode : Nat
  stdout : String
  stderr : String
  files : FileSystem

/-- Saves a text. -/
def Saving.perform (s : Saving) (break? : Option Break) : Writing Unit := do
  if s.makesParents then
    match s.path.parent? with
    | some parent => Writing.makeDirectories (parent.components.length + 1) parent
    | none        => pure ()
  Writing.writeText s.path s.text break?

namespace Plan

/-- The outcome of an error. -/
def failed (p : Plan) (w : Surroundings) (e : Error) (fs : FileSystem) : Outcome :=
  ⟨exitError, "", p.notes ++ e.text w.malformed, fs⟩

/-- Carries out a plan. -/
def run (p : Plan) (w : Surroundings) (fs : FileSystem) : Outcome :=
  match p.result with
  | .error e => p.failed w e fs
  | .ok product =>
    match product.saving with
    | none => ⟨product.exitCode, product.prints, p.notes, fs⟩
    | some saving =>
      match (saving.perform w.break?).run fs with
      | (.ok (), fs)   => ⟨product.exitCode, product.prints, p.notes, fs⟩
      | (.error f, fs) => p.failed w (.io f) fs

end Plan

/-- Runs a command line. -/
def CommandLine.runIn (w : Surroundings) (cl : CommandLine) (fs : FileSystem) : Outcome :=
  Plan.run (Id.run (cl.plan fs.disk w.terminal)) w fs

/-- Runs a command line that prints to no terminal, where no write breaks off. -/
def CommandLine.run (cl : CommandLine) (fs : FileSystem) : Outcome :=
  cl.runIn {} fs

end BlankLines
