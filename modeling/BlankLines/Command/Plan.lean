import BlankLines.Check.Files
import BlankLines.Command.Line
import BlankLines.Config.Discovery
import BlankLines.Config.Show
import BlankLines.Scan.Filter
import BlankLines.Scan.Roots

/-!
# Command — Plan

What a command comes to, before anything is printed or saved.

A plan is made by only looking at the files.  It holds the notes that are printed in any case, and
either an error or a product: a text to save, a text to print once that is saved, and an exit code.

* `CommandLine.plan`: the plan of a command line.
-/

namespace BlankLines

/-- The exit code when all is well. -/
def exitSuccess : Nat := 0

/-- The exit code when something was found. -/
def exitViolations : Nat := 1

/-- The exit code of an error. -/
def exitError : Nat := 2

/-- A text to save. -/
structure Saving where
  path : Path
  /-- Whether the directories above it are made. -/
  makesParents : Bool
  text : String
deriving DecidableEq, Repr

/-- What a command makes. -/
structure Product where
  saving : Option Saving := none
  prints : String := ""
  exitCode : Nat := exitSuccess
deriving DecidableEq, Repr

/-- What a command comes to. -/
structure Plan where
  notes : String := ""
  result : Except Error Product

/-- The configuration with what the command line sets in its place. -/
def CheckArgs.override (a : CheckArgs) (c : Config) : Config :=
  { c with
    scanner :=
      { extensions := a.extensions.getD c.scanner.extensions
        exclude := c.scanner.exclude ++ a.exclude }
    rules :=
      { declarationSpacing := c.rules.declarationSpacing && !a.noDeclSpacing
        statementSpacing := c.rules.statementSpacing && !a.noStatementSpacing
        statementPolicy := a.policy.getD c.rules.statementPolicy } }

/-- The rules and the filter of a configuration that can be used. -/
def Config.usable (c : Config) : Except Error (Rules × Filter) := do
  c.validate
  let f ← Filter.ofConfig c.scanner
  return (c.rules, f)

variable {m : Type → Type} [Monad m]

/-- The configuration a command asks for: none is looked for with `noConfig`. -/
def Config.choose (disk : Disk m) (noConfig : Bool) (path? : Option Path) :
    m (Except Error Config) :=
  if noConfig then return .ok {}
  else
    match path? with
    | some path => Config.loadFrom disk path
    | none      => Config.load disk

namespace CheckArgs

/-- The rules to check by and the filter to look for trees with. -/
def settings (a : CheckArgs) (disk : Disk m) (noConfig : Bool) :
    m (Except Error (Rules × Filter)) := do
  return (← Config.choose disk noConfig a.config).bind fun c => (a.override c).usable

/-- The rules to check by and the trees to check. -/
def trees (a : CheckArgs) (disk : Disk m) (noConfig : Bool) :
    m (Except Error (Rules × List Path)) := do
  match ← a.settings disk noConfig with
  | .error e => return .error e
  | .ok (rules, f) =>
    return (← scanAll (scan f.includes disk) a.paths).map fun paths => (rules, paths)

/-- The exit code of a check. -/
def exitCode (a : CheckArgs) (reports : List FileReport) : Nat :=
  if a.warnOnly || reports.all FileReport.isClean then exitSuccess else exitViolations

/-- What a check makes: the report goes to a file or, unless the run is quiet, is printed. -/
def product (a : CheckArgs) (quiet colors verbose : Bool) (reports : List FileReport) : Product :=
  let text := a.format.render colors verbose reports
  { saving := a.output.map fun path =>
      ⟨path, path.parent?.any fun parent => !parent.text.isEmpty, text⟩
    prints := if a.output.isSome || quiet then "" else text
    exitCode := a.exitCode reports }

/-- Says how many trees there are. -/
def countNote (count : Nat) : String :=
  "Found " ++ toString count ++ " syntax tree(s) to check\n"

/-- Says which trees' sources are unavailable. -/
def unavailableNotes (reports : List FileReport) : String :=
  String.join ((reports.filter (·.sourceUnavailable)).map fun r =>
    "note: source text for " ++ r.tree.text ++
      " is unavailable, declaration spacing skipped\n")

/-- The plan of a check. -/
def plan (a : CheckArgs) (disk : Disk m) (cl : CommandLine) (colors : Bool) : m Plan := do
  let verbose : Bool := 0 < cl.verbose
  match ← a.trees disk cl.noConfig with
  | .error e => return { result := .error e }
  | .ok (rules, paths) =>
    let counted := if verbose then countNote paths.length else ""
    match ← rules.reportFiles disk paths with
    | .error e => return { notes := counted, result := .error e }
    | .ok reports =>
      let notes := if verbose && a.format ≠ .text then unavailableNotes reports else ""
      return { notes := counted ++ notes, result := .ok (a.product cl.quiet colors verbose reports) }

end CheckArgs

/-- The plan of a new configuration file. -/
def InitArgs.plan (a : InitArgs) (disk : Disk m) : m Plan := do
  if (← disk.isPresent a.output) && !a.force then
    return { result := .error (.setting (.existingFile a.output)) }
  else
    return { result := .ok {
      saving := some ⟨a.output, false, Config.template⟩
      prints := "Created configuration file: " ++ a.output.text ++ "\n" } }

/-- The configuration in a file, if it can be used. -/
def Config.validateText (text : String) : Except Error Unit := do
  let c ← (Config.ofTomlText text).mapError Error.toml
  c.validate

/-- The plan of judging a configuration file. -/
def Config.validatePlan (disk : Disk m) (path : Path) : m Plan := do
  if ← disk.isPresent path then
    let judged := ((← disk.readText path).mapError Error.io).bind Config.validateText
    return { result := judged.map fun _ =>
      { prints := "Configuration is valid: " ++ path.text ++ "\n" } }
  else return { result := .error (.setting (.missingFile path)) }

/-- The plan of showing the configuration. -/
def ShowArgs.plan (a : ShowArgs) (disk : Disk m) (noConfig : Bool) : m Plan := do
  let loaded ← Config.choose disk noConfig a.config
  return { result := loaded.map fun c =>
    { prints := match a.format with
        | .text => c.tomlText
        | .json => c.jsonText } }

/-- The rules, one a line, with their messages in one column. -/
def rulesText : String :=
  let width := (Violation.all.map fun v => v.ruleId.length).foldl max 0
  String.join (Violation.all.map fun v =>
    v.ruleId ++ String.ofList (List.replicate (width - v.ruleId.length) ' ') ++ "  " ++
      v.message ++ "\n")

/-- Whether a report is colored; left to itself it is if it goes to a terminal. -/
def ColorChoice.colors (c : ColorChoice) (terminal : Bool) : Bool :=
  match c with
  | .always => true
  | .never  => false
  | .auto   => terminal

/-- The plan of a command line. -/
def CommandLine.plan (disk : Disk m) (terminal : Bool) (cl : CommandLine) : m Plan :=
  match cl.command with
  | .check a    => a.plan disk cl (cl.color.colors terminal)
  | .init a     => a.plan disk
  | .validate p => Config.validatePlan disk p
  | .show a     => a.plan disk cl.noConfig
  | .rules      => return { result := .ok { prints := rulesText } }

end BlankLines
