import BlankLines.Scan.Filter

/-!
# Config — Validation

What a configuration has to fulfil: its version is the only one there is, its patterns can be read,
it names an extension, and a rule is on.  The first fault in that order is reported.
-/

namespace BlankLines.Config

/-- Accepts a configuration without a version or with the only one. -/
def checkVersion (c : Config) : Except Error Unit :=
  match c.version with
  | none => .ok ()
  | some v => if v = configVersion then .ok () else .error (.setting (.unsupportedVersion v))

/-- Accepts a configuration that a run can use. -/
def validate (c : Config) : Except Error Unit := do
  c.checkVersion
  let _ ← compileExcludes c.scanner.exclude
  if c.scanner.extensions.isEmpty then throw (.setting .noExtension)
  if !c.rules.anyEnabled then throw (.setting .noRule)

theorem checkVersion_eq_ok_iff (c : Config) :
    c.checkVersion = .ok () ↔ c.version = none ∨ c.version = some configVersion := by
  unfold checkVersion
  split
  next h => simp [h]
  next v h => by_cases hv : v = configVersion <;> simp [h, hv]

theorem validate_default : validate {} = .ok () := rfl

end BlankLines.Config
