import BlankLines.Config.Basic
import BlankLines.Report.Format

/-!
# Command — Line

What a command line says, and why one is refused.
-/

namespace BlankLines

/-- When a report is colored. -/
inductive ColorChoice where
  | auto
  | always
  | never
deriving DecidableEq, Repr, Inhabited

namespace ColorChoice

/-- Every choice. -/
def all : List ColorChoice :=
  [.auto, .always, .never]

/-- The name of a choice. -/
def name : ColorChoice → String
  | .auto   => "auto"
  | .always => "always"
  | .never  => "never"

end ColorChoice

/-- How the configuration is shown. -/
inductive ShowFormat where
  | text
  | json
deriving DecidableEq, Repr, Inhabited

namespace ShowFormat

/-- Every format. -/
def all : List ShowFormat :=
  [.text, .json]

/-- The name of a format. -/
def name : ShowFormat → String
  | .text => "text"
  | .json => "json"

end ShowFormat

/-- What to check, and how. -/
structure CheckArgs where
  /-- The roots to look for trees in. -/
  paths : List Path := [⟨"."⟩]
  config : Option Path := none
  extensions : Option (List String) := none
  exclude : List String := []
  policy : Option StatementPolicy := none
  noDeclSpacing : Bool := false
  noStatementSpacing : Bool := false
  format : ReportFormat := .text
  output : Option Path := none
  warnOnly : Bool := false
deriving DecidableEq, Repr, Inhabited

/-- Where to put a new configuration file. -/
structure InitArgs where
  output : Path := Config.localName
  force : Bool := false
deriving DecidableEq, Repr, Inhabited

/-- Which configuration to show, and how. -/
structure ShowArgs where
  config : Option Path := none
  format : ShowFormat := .text
deriving DecidableEq, Repr, Inhabited

/-- What to do. -/
inductive Command where
  | check (args : CheckArgs)
  | init (args : InitArgs)
  | validate (config : Path)
  | show (args : ShowArgs)
  | rules
deriving DecidableEq, Repr

/-- A whole command line. -/
structure CommandLine where
  verbose : Nat := 0
  quiet : Bool := false
  color : ColorChoice := .auto
  noConfig : Bool := false
  command : Command
deriving DecidableEq, Repr

/-- Why a command line is refused, or what is displayed in place of running it. -/
inductive Refusal where
  /-- A value is missing or is none of those there are. -/
  | invalidValue
  /-- A value is refused with a message. -/
  | badValue (message : String)
  | unknownArgument
  | unknownCommand
  | unwantedValue
  /-- An option stands twice where it may stand once. -/
  | repeated
  /-- A command is missing, and nothing else is given either. -/
  | nothingGiven
  | missingCommand
  | help
  | version
deriving DecidableEq, Repr

/-- The exit code of a refusal: help and version are successes. -/
def Refusal.exitCode : Refusal → Nat
  | .help | .version => 0
  | _ => 2

/-- What is said about a refusal. -/
def Refusal.message : Refusal → String
  | .invalidValue     => "a value is missing or invalid"
  | .badValue message => "invalid value: " ++ message
  | .unknownArgument  => "unexpected argument"
  | .unknownCommand   => "unrecognized subcommand"
  | .unwantedValue    => "an option that takes no value was given one"
  | .repeated         => "an option was used more than once"
  | .nothingGiven     => "no arguments were given"
  | .missingCommand   => "a subcommand is required but was not given"
  | .help             => "Usage: blankline-guard [OPTIONS] <check|init|config|rules>"
  | .version          => "blankline-guard 0.1.0"

end BlankLines
