import BlankLines.Files.Disk
import BlankLines.Glob.Pattern
import BlankLines.Json.Fault
import BlankLines.Toml.Decode

/-!
# Error

Every way in which the program gives up, as causes.

* `Error.kind`, `Error.message`, `Error.detail?`, `Error.hint?`: what is said about each.
* `Error.text`: all of it, as it is printed.
-/

namespace BlankLines

/-- What is wrong with a setting. -/
inductive SettingFault where
  | unknownPolicy (name : String)
  | unknownFormat (name : String)
  | unsupportedVersion (version : String)
  | noExtension
  | noRule
  | missingFile (path : Path)
  | existingFile (path : Path)
deriving DecidableEq, Repr

/-- The only version of configuration files. -/
def configVersion : String := "1"

/-- The wording of a fault of a setting. -/
def SettingFault.message : SettingFault → String
  | .unknownPolicy name => "Unknown statement policy: " ++ name
  | .unknownFormat name => "Unknown output format: " ++ name
  | .unsupportedVersion version =>
    "Unsupported config version '" ++ version ++ "'. Only version '" ++ configVersion ++
      "' is supported."
  | .noExtension => "scanner.extensions must name at least one tree dump extension"
  | .noRule =>
    "at least one of rules.declaration_spacing and rules.statement_spacing must be enabled"
  | .missingFile path => "Configuration file not found: " ++ path.text
  | .existingFile path =>
    "Configuration file already exists: " ++ path.text ++ ". Use --force to overwrite."

/-- Why exclude patterns are refused. -/
inductive PatternFault where
  /-- The text of one of them is no pattern. -/
  | unreadable (text : String) (fault : Glob.Fault)
  /-- They are read, but number `index` of those compiled together nests too deeply. -/
  | tooDeep (index : Nat)
deriving DecidableEq, Repr

/-- The wording of a fault of patterns. -/
def PatternFault.message : PatternFault → String
  | .unreadable text fault => "error parsing glob '" ++ text ++ "': " ++ fault.message
  | .tooDeep index         => "error parsing pattern " ++ toString index

/-- Why the program gives up. -/
inductive Error where
  | setting (fault : SettingFault)
  | unreadableFile (path : Path) (fault : IoFault)
  | unavailableSource (path : Path) (fault : IoFault)
  | badTree (path : Path) (complaint : Json.Complaint)
  | badPattern (patterns : String) (fault : PatternFault)
  | missingRoot (path : Path)
  | io (fault : IoFault)
  | toml (complaint : Toml.Complaint)
  | json (complaint : Json.Complaint)
deriving DecidableEq, Repr

namespace Error

/-- The name of an error's kind. -/
def kind : Error → String
  | .setting _             => "Config"
  | .unreadableFile _ _    => "FileRead"
  | .unavailableSource _ _ => "SourceUnavailable"
  | .badTree _ _           => "TreeParse"
  | .badPattern _ _        => "InvalidPattern"
  | .missingRoot _         => "IO"
  | .io _                  => "IO"
  | .toml _                => "TOML"
  | .json _                => "JSON"

/-- What is said about an error, given the words for a document that is not TOML. -/
def message (e : Error) (malformed : String := Toml.malformedWords) : String :=
  match e with
  | .setting fault            => "Configuration error: " ++ fault.message
  | .unreadableFile path _    => "Failed to read file: " ++ path.text
  | .unavailableSource path _ => "Source text unavailable: " ++ path.text
  | .badTree path _           => "Invalid syntax tree in " ++ path.text
  | .badPattern patterns _    => "Invalid glob pattern: " ++ patterns
  | .missingRoot path         => "IO error: path not found: " ++ path.text
  | .io fault                 => "IO error: " ++ fault.message
  | .toml complaint           => "TOML parse error: " ++ complaint.message malformed
  | .json complaint           => "JSON serialization error: " ++ complaint.message

/-- The cause behind an error, where the message does not hold it. -/
def detail? : Error → Option String
  | .unreadableFile _ fault    => some fault.message
  | .unavailableSource _ fault => some fault.message
  | .badTree _ complaint       => some complaint.message
  | .badPattern _ fault        => some fault.message
  | _                          => none

/-- What might help. -/
def hint? : Error → Option String
  | .badTree _ _ =>
    some "exclude JSON files that are not tree dumps with --exclude, or set scanner.extensions"
  | .badPattern _ _ => some "check the glob syntax of scanner.exclude"
  | _ => none

/-- An error as it is printed, given the words for a document that is not TOML. -/
def text (e : Error) (malformed : String := Toml.malformedWords) : String :=
  "✖ " ++ e.kind ++ ": " ++ e.message malformed ++ "\n" ++
    (e.detail?.elim "" fun detail => "  × " ++ detail ++ "\n") ++
    (e.hint?.elim "" fun hint => "  help: " ++ hint ++ "\n")

end Error

end BlankLines
