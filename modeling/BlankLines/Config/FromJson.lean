import BlankLines.Config.Basic
import BlankLines.Json.Decode

/-!
# Config — FromJson

Configurations from JSON.  Every record may leave out any part and passes over names it does not
know.
-/

namespace BlankLines
open Json (Decoder Layout)

/-- The names of policies. -/
def StatementPolicy.table : List (String × StatementPolicy) :=
  all.map fun p => (p.name, p)

/-- The file selection as JSON. -/
def ScannerConfig.ofJson (levels : Nat) : Decoder ScannerConfig := fun node =>
  let texts := Json.list (levels - 1) (Json.text "a string")
  let layout := Layout.part ⟨"extensions", texts, some ["json"]⟩ <|
    .part ⟨"exclude", texts, some []⟩ .done
  (Json.record levels "ScannerConfig" false layout node).map
    fun (extensions, exclude, _) => ⟨extensions, exclude⟩

/-- The rules as JSON. -/
def Rules.ofJson (levels : Nat) : Decoder Rules := fun node =>
  let policy := Json.choice (levels - 1) StatementPolicy.table
  let layout := Layout.part ⟨"declaration_spacing", Json.bool, some true⟩ <|
    .part ⟨"statement_spacing", Json.bool, some true⟩ <|
    .part ⟨"statement_policy", policy, some .commentAware⟩ .done
  (Json.record levels "RuleConfig" false layout node).map
    fun (declarations, statements, policy, _) => ⟨declarations, statements, policy⟩

namespace Config

/-- A configuration as JSON. -/
def ofJson (levels : Nat) : Decoder Config := fun node =>
  let layout := Layout.part ⟨"version", Json.nullable (Json.text "a string"), some none⟩ <|
    .part ⟨"scanner", ScannerConfig.ofJson (levels - 1), some {}⟩ <|
    .part ⟨"rules", Rules.ofJson (levels - 1), some {}⟩ .done
  (Json.record levels "Config" false layout node).map
    fun (version, scanner, rules, _) => ⟨version, scanner, rules⟩

/-- The configuration of a whole JSON text. -/
def ofJsonText (text : String) : Except Json.Complaint Config :=
  Json.decodeText (ofJson Json.depthLimit) text

end Config

end BlankLines
