import BlankLines.Config.FromJson
import BlankLines.Toml.Decode

/-!
# Config — FromToml

Configurations from TOML.
-/

namespace BlankLines
open Toml (Parts)

/-- The parts of the file selection. -/
def ScannerConfig.parts : Parts ScannerConfig :=
  [("extensions", fun c item => (Toml.list Toml.text item).map fun v => { c with extensions := v }),
    ("exclude", fun c item => (Toml.list Toml.text item).map fun v => { c with exclude := v })]

/-- The parts of the rules. -/
def Rules.parts : Parts Rules :=
  [("declaration_spacing",
      fun r item => (Toml.bool item).map fun v => { r with declarationSpacing := v }),
    ("statement_spacing",
      fun r item => (Toml.bool item).map fun v => { r with statementSpacing := v }),
    ("statement_policy", fun r item =>
      (Toml.choice StatementPolicy.table item).map fun v => { r with statementPolicy := v })]

namespace Config

/-- The parts of a configuration. -/
def parts : Parts Config :=
  [("version", fun c item => (Toml.text item).map fun v => { c with version := some v }),
    ("scanner", fun c item =>
      (Toml.record "ScannerConfig" ScannerConfig.parts {} item).map fun v =>
        { c with scanner := v }),
    ("rules", fun c item =>
      (Toml.record "RuleConfig" Rules.parts {} item).map fun v => { c with rules := v })]

/-- The configuration of a whole TOML text. -/
def ofTomlText (text : String) : Except Toml.Complaint Config :=
  Toml.decodeText parts {} text

end Config

end BlankLines
