import BlankLines.Proofs.Command.Steps
import BlankLines.Proofs.Config.Discovery
import BlankLines.Proofs.Scan.Excludes

/-!
# Proofs — Config — the first fault of a configuration

A configuration can have several faults, and only one is reported.  There is an order in which they
are looked for, each only where those before it are missing, and whoever refuses a configuration
refuses it for the first.

* `readPatterns_eq_error_iff`, `compileExcludes_eq_error_iff`: the first text that is no pattern.
* `Config.FirstFault`, `Config.TextFault`: the fault of a configuration, and of a text that should
  hold one.
* `Config.validate_eq_error_iff`: a configuration is refused for its first fault.
* `Config.validateText_eq_error_iff`, `Config.ofFileText_bind_usable_eq_error_iff`: so is a text, by
  either of its two readers, though one of them asks twice for the version and for the patterns.
-/

namespace BlankLines

/-! ### Patterns -/

section
variable {texts : List String} {e : Error}

/-- Patterns are refused for the first text that is none. -/
theorem readPatterns_eq_error_iff :
    readPatterns texts = .error e ↔
      ∃ before text after fault, texts = before ++ text :: after ∧
        (∀ t ∈ before, ∃ p, Glob.parse t = .ok p) ∧ Glob.parse text = .error fault ∧
        e = .badPattern text (.unreadable text fault) := by
  induction texts with
  | nil => simp [readPatterns]
  | cons first rest ih =>
      rw [readPatterns]
      cases hfirst : Glob.parse first with
      | error fault =>
          refine ⟨fun h => ⟨[], first, rest, fault, rfl, by simp, hfirst, ?_⟩, ?_⟩
          · exact (Except.error.inj h).symm
          · rintro ⟨_ | ⟨_, before⟩, text, after, fault', heq, hbefore, htext, rfl⟩
            · obtain ⟨rfl, -⟩ := List.cons.inj heq
              cases hfirst.symm.trans htext
              rfl
            · obtain ⟨rfl, -⟩ := List.cons.inj heq
              obtain ⟨p, hp⟩ := hbefore first List.mem_cons_self
              cases hfirst.symm.trans hp
      | ok p =>
          have hrest : (do
              let p ← (Except.ok p : Except Glob.Fault Glob.Pattern).mapError fun f =>
                Error.badPattern first (.unreadable first f)
              let ps ← readPatterns rest
              return p :: ps) = .error e ↔ readPatterns rest = .error e := by
            cases readPatterns rest <;>
              simp [bind, Except.bind, Except.mapError, pure, Except.pure]
          rw [hrest, ih]
          constructor
          · rintro ⟨before, text, after, fault, rfl, hbefore, htext, rfl⟩
            exact ⟨first :: before, text, after, fault, rfl,
              List.forall_mem_cons.2 ⟨⟨p, hfirst⟩, hbefore⟩, htext, rfl⟩
          · rintro ⟨_ | ⟨_, before⟩, text, after, fault, heq, hbefore, htext, rfl⟩
            · obtain ⟨rfl, -⟩ := List.cons.inj heq
              cases hfirst.symm.trans htext
            · obtain ⟨rfl, rfl⟩ := List.cons.inj heq
              exact ⟨before, text, after, fault, rfl, (List.forall_mem_cons.1 hbefore).2, htext, rfl⟩

/-- Patterns that can be read are refused together if one of them nests too deeply. -/
theorem compileExcludes_eq_error_iff :
    compileExcludes texts = .error e ↔
      readPatterns texts = .error e ∨
        ∃ ps index, readPatterns texts = .ok ps ∧ tooDeep? ps = some index ∧
          e = .badPattern (", ".intercalate texts) (.tooDeep index) := by
  rw [compileExcludes, bind_eq_error_iff]
  refine or_congr_right (exists_congr fun ps => ?_)
  cases hdeep : tooDeep? ps with
  | none => simp [pure, Except.pure]
  | some index => simp [throw, throwThe, MonadExceptOf.throw, eq_comm]

end

namespace Config

/-! ### The order of faults -/

/-- A configuration without a version or with the only one. -/
def HasVersion (c : Config) : Prop :=
  c.version = none ∨ c.version = some configVersion

/-- The fault of a configuration that is looked for first.  Each one is looked for only where those
before it are missing. -/
inductive FirstFault (c : Config) : Error → Prop where
  | version {v : String} (hv : c.version = some v) (hne : v ≠ configVersion) :
      FirstFault c (.setting (.unsupportedVersion v))
  | pattern {before after : List String} {text : String} {fault : Glob.Fault}
      (hversion : c.HasVersion) (htexts : c.scanner.exclude = before ++ text :: after)
      (hbefore : ∀ t ∈ before, ∃ p, Glob.parse t = .ok p) (htext : Glob.parse text = .error fault) :
      FirstFault c (.badPattern text (.unreadable text fault))
  | nesting {ps : List Glob.Pattern} {index : Nat} (hversion : c.HasVersion)
      (hread : readPatterns c.scanner.exclude = .ok ps) (hdeep : tooDeep? ps = some index) :
      FirstFault c (.badPattern (", ".intercalate c.scanner.exclude) (.tooDeep index))
  | extension (hversion : c.HasVersion) (hexclude : ∀ text ∈ c.scanner.exclude, IsPattern text)
      (hnone : c.scanner.extensions = []) : FirstFault c (.setting .noExtension)
  | rule (hversion : c.HasVersion) (hexclude : ∀ text ∈ c.scanner.exclude, IsPattern text)
      (hsome : c.scanner.extensions ≠ []) (hoff : c.rules.anyEnabled = false) :
      FirstFault c (.setting .noRule)

/-- The fault of a text: it is no TOML, or what it says is no configuration that can be used. -/
inductive TextFault (text : String) : Error → Prop where
  | malformed {complaint : Toml.Complaint} (h : ofTomlText text = .error complaint) :
      TextFault text (.toml complaint)
  | faulty {c : Config} {e : Error} (h : ofTomlText text = .ok c) (hfault : c.FirstFault e) :
      TextFault text e

variable {c : Config} {e : Error} {text : String}

/-- A configuration with another version has no other fault. -/
theorem FirstFault.version_or (h : c.FirstFault e) :
    (∃ v, c.version = some v ∧ v ≠ configVersion ∧ e = .setting (.unsupportedVersion v)) ∨
      c.HasVersion := by
  cases h with
  | version hv hne => exact .inl ⟨_, hv, hne, rfl⟩
  | pattern hversion => exact .inr hversion
  | nesting hversion => exact .inr hversion
  | extension hversion => exact .inr hversion
  | rule hversion => exact .inr hversion

/-- What is asked of a configuration whose patterns can be compiled. -/
def checkRest (c : Config) : Except Error Unit := do
  if c.scanner.extensions.isEmpty then throw (.setting .noExtension)
  if !c.rules.anyEnabled then throw (.setting .noRule)

theorem validate_eq (c : Config) :
    c.validate = c.checkVersion >>= fun _ => compileExcludes c.scanner.exclude >>= fun _ =>
      c.checkRest := rfl

theorem checkRest_eq_error_iff :
    c.checkRest = .error e ↔
      (c.scanner.extensions = [] ∧ e = .setting .noExtension) ∨
        (c.scanner.extensions ≠ [] ∧ c.rules.anyEnabled = false ∧ e = .setting .noRule) := by
  unfold checkRest
  cases c.scanner.extensions <;> cases c.rules.anyEnabled <;>
    simp [bind, Except.bind, pure, Except.pure, throw, throwThe, MonadExceptOf.throw, eq_comm]

/-- **A configuration is refused for its first fault.** -/
theorem validate_eq_error_iff : c.validate = .error e ↔ c.FirstFault e := by
  have hversion : c.checkVersion = .ok () ↔ c.HasVersion := checkVersion_eq_ok_iff c
  have hpatterns := @exists_compileExcludes_iff c.scanner.exclude
  rw [validate_eq]
  simp only [bind_eq_error_iff, checkVersion_eq_error_iff, compileExcludes_eq_error_iff,
    readPatterns_eq_error_iff, checkRest_eq_error_iff]
  constructor
  · rintro (⟨v, hv, hne, rfl⟩ | ⟨_, hok, h⟩)
    · exact .version hv hne
    have hv := hversion.1 hok
    rcases h with (⟨before, text, after, fault, htexts, hbefore, htext, rfl⟩ |
      ⟨ps, index, hread, hdeep, rfl⟩) | ⟨ps, hps, ⟨hnone, rfl⟩ | ⟨hsome, hoff, rfl⟩⟩
    · exact .pattern hv htexts hbefore htext
    · exact .nesting hv hread hdeep
    · exact .extension hv (hpatterns.1 ⟨ps, hps⟩) hnone
    · exact .rule hv (hpatterns.1 ⟨ps, hps⟩) hsome hoff
  · intro h
    cases h with
    | version hv hne => exact .inl ⟨_, hv, hne, rfl⟩
    | pattern hv htexts hbefore htext =>
        exact .inr ⟨(), hversion.2 hv, .inl (.inl ⟨_, _, _, _, htexts, hbefore, htext, rfl⟩)⟩
    | nesting hv hread hdeep =>
        exact .inr ⟨(), hversion.2 hv, .inl (.inr ⟨_, _, hread, hdeep, rfl⟩)⟩
    | extension hv hexclude hnone =>
        obtain ⟨ps, hps⟩ := hpatterns.2 hexclude
        exact .inr ⟨(), hversion.2 hv, .inr ⟨ps, hps, .inl ⟨hnone, rfl⟩⟩⟩
    | rule hv hexclude hsome hoff =>
        obtain ⟨ps, hps⟩ := hpatterns.2 hexclude
        exact .inr ⟨(), hversion.2 hv, .inr ⟨ps, hps, .inr ⟨hsome, hoff, rfl⟩⟩⟩

/-! ### Two readers of one text -/

/-- A text is refused for its first fault by the command that judges it. -/
theorem validateText_eq_error_iff : validateText text = .error e ↔ TextFault text e := by
  rw [validateText, bind_eq_error_iff, mapError_eq_error_iff]
  simp only [mapError_eq_ok_iff, validate_eq_error_iff]
  constructor
  · rintro (⟨complaint, h, rfl⟩ | ⟨c, h, hfault⟩)
    · exact .malformed h
    · exact .faulty h hfault
  · rintro (⟨h⟩ | ⟨h, hfault⟩)
    · exact .inl ⟨_, h, rfl⟩
    · exact .inr ⟨_, h, hfault⟩

/-- A text is refused for its first fault where its configuration is to be used, though its version
is asked for twice then. -/
theorem ofFileText_bind_usable_eq_error_iff :
    (ofFileText text).bind usable = .error e ↔ TextFault text e := by
  refine bind_eq_error_iff.trans ?_
  simp only [ofFileText_eq_error_iff, ofFileText_eq_ok_iff, usable_eq_error_iff,
    validate_eq_error_iff]
  constructor
  · rintro ((⟨complaint, h, rfl⟩ | ⟨c, v, h, hv, hne, rfl⟩) | ⟨c, ⟨h, -⟩, hfault⟩)
    · exact .malformed h
    · exact .faulty h (.version hv hne)
    · exact .faulty h hfault
  · rintro (⟨h⟩ | ⟨h, hfault⟩)
    · exact .inl (.inl ⟨_, h, rfl⟩)
    · rcases hfault.version_or with ⟨v, hv, hne, rfl⟩ | hversion
      · exact .inl (.inr ⟨_, v, h, hv, hne, rfl⟩)
      · exact .inr ⟨_, ⟨h, hversion⟩, hfault⟩

end Config

end BlankLines
