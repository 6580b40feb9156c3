import BlankLines.Config.Basic
import BlankLines.Json.Value
import BlankLines.Toml.Writer

/-!
# Config — Show

Configurations as TOML and as JSON, and the file that a new configuration starts from.  A version
is only shown if there is one.
-/

namespace BlankLines
open Json (Value)

/-- The file selection as TOML. -/
def ScannerConfig.toToml (c : ScannerConfig) : List Char :=
  Toml.writeHeader "scanner" ++
    Toml.writePair "extensions" (Toml.writeList c.extensions) ++
    Toml.writePair "exclude" (Toml.writeList c.exclude)

/-- The rules as TOML. -/
def Rules.toToml (r : Rules) : List Char :=
  Toml.writeHeader "rules" ++
    Toml.writePair "declaration_spacing" (Toml.writeBool r.declarationSpacing) ++
    Toml.writePair "statement_spacing" (Toml.writeBool r.statementSpacing) ++
    Toml.writePair "statement_policy" (Toml.writeText r.statementPolicy.name)

/-- A list of strings as JSON. -/
def textsToJson (texts : List String) : Value :=
  .array (texts.map .text)

/-- The file selection as JSON. -/
def ScannerConfig.toJson (c : ScannerConfig) : Value :=
  .object [("extensions", textsToJson c.extensions), ("exclude", textsToJson c.exclude)]

/-- The rules as JSON. -/
def Rules.toJson (r : Rules) : Value :=
  .object
    [("declaration_spacing", .bool r.declarationSpacing),
      ("statement_spacing", .bool r.statementSpacing),
      ("statement_policy", .text r.statementPolicy.name)]

namespace Config

/-- A configuration as TOML: an empty line stands between its parts. -/
def toToml (c : Config) : List Char :=
  let version := match c.version with
    | some v => Toml.writePair "version" (Toml.writeText v) ++ ['\n']
    | none   => []
  version ++ c.scanner.toToml ++ '\n' :: c.rules.toToml

/-- A configuration as JSON. -/
def toJson (c : Config) : Value :=
  let version := match c.version with
    | some v => [("version", Value.text v)]
    | none   => []
  .object (version ++ [("scanner", c.scanner.toJson), ("rules", c.rules.toJson)])

/-- The configuration in effect, as a TOML file. -/
def tomlText (c : Config) : String :=
  "# Effective configuration\n\n" ++ String.ofList c.toToml

/-- The configuration in effect, as a JSON file. -/
def jsonText (c : Config) : String :=
  c.toJson.toPrettyText ++ "\n"

/-- What a new configuration file says. -/
def template : String :=
  "# blankline-guard configuration file\n" ++
  "version = \"1\"\n\n" ++
  "[scanner]\n" ++
  "# Extensions of syntax tree dumps produced by the parser\n" ++
  "extensions = [\"json\"]\n\n" ++
  "# Exclude patterns (glob syntax)\n" ++
  "exclude = [\n" ++
  "    \"**/target/**\",\n" ++
  "    \"**/node_modules/**\",\n" ++
  "    \"**/.git/**\",\n" ++
  "    \"**/vendor/**\",\n" ++
  "]\n\n" ++
  "[rules]\n" ++
  "# Require a blank line between consecutive top-level declarations\n" ++
  "declaration_spacing = true\n\n" ++
  "# Flag blank lines between consecutive statements inside function bodies\n" ++
  "statement_spacing = true\n\n" ++
  "# \"comment-aware\": a blank line followed by a comment is allowed\n" ++
  "# \"strict\": every blank line between statements is reported\n" ++
  "statement_policy = \"comment-aware\"\n"

end Config

end BlankLines
