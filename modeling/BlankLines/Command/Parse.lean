import BlankLines.Command.Level
import BlankLines.Error

/-!
# Command — Parse

The program's levels, and the reading of a whole command line.

The general options may stand at every level; of two levels that give one, the inner counts.  A
command is read to its end before the level around it is judged.

* `CommandLine.ofWords`: the whole command line.
-/

namespace BlankLines

/-- The general options of one level, as far as they are given there. -/
structure Globals where
  verbose : Option Nat := none
  quiet : Bool := false
  color : Option ColorChoice := none
  noConfig : Bool := false
deriving DecidableEq, Repr

/-- The general options of a level inside another. -/
def Globals.inside (outer inner : Globals) : Globals where
  verbose := inner.verbose.or outer.verbose
  quiet := inner.quiet || outer.quiet
  color := inner.color.or outer.color
  noConfig := inner.noConfig || outer.noConfig

/-- The arguments of a level: the general ones and its own. -/
structure LevelArgs (α : Type) where
  globals : Globals := {}
  own : α
deriving DecidableEq, Repr

/-- A verbosity goes no higher than this. -/
def verboseLimit : Nat := 255

/-- A path, which is not empty. -/
def pathValue (value : String) : Except Refusal Path :=
  if value.isEmpty then .error .invalidValue else .ok ⟨value⟩

/-- One of a list of names, letter for letter. -/
def namedValue {α : Type} (all : List α) (name : α → String) (value : String) :
    Except Refusal α :=
  match all.find? fun a => name a = value with
  | some a => .ok a
  | none   => .error .invalidValue

/-- A policy. -/
def policyValue (value : String) : Except Refusal StatementPolicy :=
  match StatementPolicy.ofName? value with
  | some p => .ok p
  | none   => .error (.badValue (SettingFault.unknownPolicy value).message)

/-- A format of a report. -/
def formatValue (value : String) : Except Refusal ReportFormat :=
  match ReportFormat.ofName? value with
  | some f => .ok f
  | none   => .error (.badValue (SettingFault.unknownFormat value).message)

/-- The texts between the commas of a value. -/
def commaSeparated (value : String) : List String :=
  let pieces := value.toList.foldr (fun c pieces =>
    match pieces with
    | piece :: more => if c = ',' then [] :: piece :: more else (c :: piece) :: more
    | [] => [[c]]) [[]]
  pieces.map String.ofList

section Options
variable {α : Type}

/-- A flag of a level's own. -/
def ownFlag (short : Option Char) (long : String) (set : α → α) : OptionSpec (LevelArgs α) :=
  ⟨short, long, .flag fun a => { a with own := set a.own }⟩

/-- An option of a level's own with a value. -/
def ownValue {β : Type} (short : Option Char) (long : String) (many : Bool)
    (read : String → Except Refusal β) (set : β → α → α) : OptionSpec (LevelArgs α) :=
  ⟨short, long, .value many fun value a => (read value).map fun b => { a with own := set b a.own }⟩

/-- The options of every level. -/
def globalOptions : List (OptionSpec (LevelArgs α)) :=
  let change (f : Globals → Globals) (a : LevelArgs α) : LevelArgs α :=
    { a with globals := f a.globals }
  [⟨some 'v', "verbose", .count (change fun g =>
      { g with verbose := some (min (g.verbose.getD 0 + 1) verboseLimit) })⟩,
    ⟨some 'q', "quiet", .flag (change fun g => { g with quiet := true })⟩,
    ⟨none, "color", .value false fun value a =>
      (namedValue ColorChoice.all ColorChoice.name value).map fun c =>
        change (fun g => { g with color := some c }) a⟩,
    ⟨none, "no-config", .flag (change fun g => { g with noConfig := true })⟩,
    ⟨some 'h', "help", .display .help⟩]

end Options

/-- The level of `check`. -/
def checkLevel : Level (LevelArgs CheckArgs) where
  options := globalOptions ++
    [ownValue (some 'c') "config" false pathValue fun p a => { a with config := some p },
      ownValue none "ext" true .ok fun value a =>
        { a with extensions := some (a.extensions.getD [] ++ commaSeparated value) },
      ownValue (some 'x') "exclude" true .ok fun value a =>
        { a with exclude := a.exclude ++ [value] },
      ownValue none "policy" false policyValue fun p a => { a with policy := some p },
      ownFlag none "no-decl-spacing" fun a => { a with noDeclSpacing := true },
      ownFlag none "no-statement-spacing" fun a => { a with noStatementSpacing := true },
      ownValue (some 'f') "format" false formatValue fun f a => { a with format := f },
      ownValue (some 'o') "output" false pathValue fun p a => { a with output := some p },
      ownFlag none "warn-only" fun a => { a with warnOnly := true }]
  paths := some fun values a => do
    let paths ← values.mapM pathValue
    return { a with own := { a.own with paths := a.own.paths ++ paths } }

/-- The level of `init`. -/
def initLevel : Level (LevelArgs InitArgs) where
  options := globalOptions ++
    [ownValue (some 'o') "output" false pathValue fun p a => { a with output := p },
      ownFlag none "force" fun a => { a with force := true }]

/-- The level of `config validate`. -/
def validateLevel : Level (LevelArgs Path) where
  options := globalOptions ++ [ownValue (some 'c') "config" false pathValue fun p _ => p]

/-- The level of `config show`. -/
def showLevel : Level (LevelArgs ShowArgs) where
  options := globalOptions ++
    [ownValue (some 'c') "config" false pathValue fun p a => { a with config := some p },
      ownValue (some 'f') "format" false (namedValue ShowFormat.all ShowFormat.name)
        fun f a => { a with format := f }]

/-- The level of `rules`. -/
def rulesLevel : Level (LevelArgs Unit) where
  options := globalOptions

/-- The names of the commands of `config`. -/
def configCommands : List String :=
  ["validate", "show", "help"]

/-- The level of `config`. -/
def configLevel : Level (LevelArgs Unit) where
  options := globalOptions
  commands := configCommands

/-- The names of the program's commands. -/
def commandNames : List String :=
  ["check", "init", "config", "rules", "help"]

/-- The program's own level. -/
def topLevel : Level (LevelArgs Unit) where
  options := globalOptions ++ [⟨some 'V', "version", .display .version⟩]
  commands := commandNames

/-- What `help` displays: the words after it name a command, step by step. -/
def helpFor (commands : List String) : List String → Refusal
  | [] => .help
  | word :: rest =>
    if !commands.contains word then .unknownCommand
    else helpFor (if word = "config" && commands = commandNames then configCommands else []) rest

/-- Reads a level whose words end in a command: `inner` reads the command, and what waits in the
level is judged after it. -/
def readOuter (l : Level (LevelArgs Unit)) (words : List String)
    (inner : String → List String → Except Refusal (Globals × Command)) :
    Except Refusal (Globals × Command) := do
  let (r, command) ← l.run { args := { own := () } } false false words
  match command with
  | some (name, rest) =>
    let (globals, command) ← if name = "help" then throw (helpFor l.commands rest) else inner name rest
    let r ← r.settle l
    return (r.args.globals.inside globals, command)
  | none =>
    let r ← r.settle l
    throw (if r.met.isEmpty then .nothingGiven else .missingCommand)

/-- Reads a level without commands, whose own arguments make a command. -/
def readInner {α : Type} (l : Level (LevelArgs α)) (own : α) (command : α → Command)
    (words : List String) : Except Refusal (Globals × Command) := do
  let a ← l.finish { own } words
  return (a.globals, command a.own)

/-- Reads the command of `config`. -/
def readConfig (name : String) (words : List String) : Except Refusal (Globals × Command) :=
  if name = "validate" then readInner validateLevel Config.localName .validate words
  else readInner showLevel {} .show words

/-- Reads a command of the program; `check` without paths looks in the current directory. -/
def readCommand (name : String) (words : List String) : Except Refusal (Globals × Command) :=
  if name = "check" then
    readInner checkLevel { paths := [] }
      (fun a => .check (if a.paths.isEmpty then { a with paths := [⟨"."⟩] } else a)) words
  else if name = "init" then readInner initLevel {} .init words
  else if name = "config" then readOuter configLevel words readConfig
  else readInner rulesLevel () (fun _ => .rules) words

/-- Reads a whole command line, without the program's name. -/
def CommandLine.ofWords (words : List String) : Except Refusal CommandLine := do
  let (globals, command) ← readOuter topLevel words readCommand
  return {
    verbose := globals.verbose.getD 0
    quiet := globals.quiet
    color := globals.color.getD .auto
    noConfig := globals.noConfig
    command }

end BlankLines
