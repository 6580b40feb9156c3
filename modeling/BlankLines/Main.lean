import BlankLines.Command.Parse
import BlankLines.Command.Plan

/-!
# Main

The program: reads its command line, makes a plan against the real files, and carries it out.
-/

namespace BlankLines

/-- A failure of the system as a fault. -/
def IoFault.ofSystem (e : IO.Error) : IoFault :=
  match e with
  | .noFileOrDirectory _ _ _ => .notFound
  | .alreadyExists _ _ _ => .alreadyExists
  | .inappropriateType _ code _ => if code = 20 then .notDirectory else .isDirectory
  | e => .other (toString e)

/-- Runs an action, its failure as a fault. -/
def attempt {α : Type} (action : IO α) : IO (Except IoFault α) := do
  match ← action.toBaseIO with
  | .ok a => return .ok a
  | .error e => return .error (.ofSystem e)

/-- The text of a file. -/
def readTextFile (path : Path) : IO (Except IoFault String) := do
  if path.text.toList.contains '\x00' then return .error .nulInPath
  match ← attempt (IO.FS.readBinFile path.text) with
  | .error f => return .error f
  | .ok content =>
    match String.fromUTF8? content with
    | some text => return .ok text
    | none => return .error .notText

/-- Whether there is a file or directory. -/
def isPresentFile (path : Path) : IO Bool := do
  if path.text.isEmpty then return false
  let here ← IO.currentDir
  (here / path.text).pathExists

/-- The kind of a file. -/
def FileKind.ofSystem : IO.FS.FileType → FileKind
  | .file => .regular
  | .dir  => .directory
  | _     => .other

/-- What a walk comes to at and below a path: a directory, and then its entries in the order of
their names.  Links are followed only where the walk starts. -/
partial def walkPath (follows : Bool) (path : Path) : IO (List (Except IoFault Met)) := do
  let here ← IO.currentDir
  let place := here / path.text
  match ← attempt (if follows then place.metadata else place.symlinkMetadata) with
  | .error f => return [.error f]
  | .ok data =>
    let met : Met := ⟨path, .ofSystem data.type⟩
    if met.kind ≠ .directory then return [.ok met]
    else
      match ← attempt place.readDir with
      | .error f => return [.ok met, .error f]
      | .ok entries =>
        let names := entries.toList.map fun entry => entry.fileName
        let sorted := names.mergeSort fun a b => decide (a ≤ b)
        let found ← sorted.mapM fun name => walkPath false (path.join ⟨name⟩)
        return .ok met :: found.flatten

/-- The directory of the user's own configuration. -/
def userConfigDir : IO (Option Path) := do
  let base : Option Path ←
    match ← IO.getEnv "XDG_CONFIG_HOME" with
    | some dir =>
      if Path.isAbsolute ⟨dir⟩ then pure (some ⟨dir⟩)
      else pure ((← IO.getEnv "HOME").map fun home => Path.join ⟨home⟩ ⟨".config"⟩)
    | none => pure ((← IO.getEnv "HOME").map fun home => Path.join ⟨home⟩ ⟨".config"⟩)
  return base.map fun dir => dir.join ⟨"blankline-guard"⟩

/-- The real files. -/
def systemDisk : Disk IO where
  readText := readTextFile
  isPresent := isPresentFile
  filesUnder := walkPath true
  currentDir := do
    match ← attempt IO.currentDir with
    | .ok dir => return some ⟨toString dir⟩
    | .error _ => return none
  configDir := userConfigDir

/-- Saves a text. -/
def saveText (s : Saving) : IO (Except IoFault Unit) := do
  if s.makesParents then
    if let some parent := s.path.parent? then
      if let .error f ← attempt (IO.FS.createDirAll parent.text) then return .error f
  attempt (IO.FS.writeFile s.path.text s.text)

/-- Prints the notes and the error, and gives the exit code of an error. -/
def reportError (p : Plan) (e : Error) : IO UInt32 := do
  IO.eprint (p.notes ++ e.text)
  return UInt32.ofNat exitError

/-- Carries out a plan. -/
def carryOut (p : Plan) : IO UInt32 := do
  match p.result with
  | .error e => reportError p e
  | .ok product =>
    if let some saving := product.saving then
      if let .error f ← saveText saving then return ← reportError p (.io f)
    IO.eprint p.notes
    IO.print product.prints
    return UInt32.ofNat product.exitCode

/-- Whether a report that chooses its own colors has any. -/
def wantsColors : IO Bool := do
  if (← IO.getEnv "NO_COLOR").isSome then return false
  (← IO.getStdout).isTty

end BlankLines

open BlankLines in
/-- Runs the program. -/
def main (words : List String) : IO UInt32 := do
  match CommandLine.ofWords words with
  | .ok commandLine => carryOut (← commandLine.plan systemDisk (← wantsColors))
  | .error refusal =>
    if refusal.exitCode = 0 then IO.println refusal.message
    else IO.eprintln ("error: " ++ refusal.message)
    return UInt32.ofNat refusal.exitCode
