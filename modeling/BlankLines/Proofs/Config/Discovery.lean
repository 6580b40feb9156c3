import Mathlib.Control.Monad.Basic
import BlankLines.Command.Plan
import BlankLines.Files.Memory
import BlankLines.Proofs.Results

/-!
# Proofs — Config — the file that decides

A run takes its configuration from one file at most.  Which one is decided by what is there, before
anything is read; after that no other file is asked for, whatever comes of reading it.

* `Config.load_eq_found`: to load a configuration is to find its file and to load that, on any disk.
* `Config.ofRead_eq_ok_iff`, `Config.ofRead_eq_error_iff`: what comes of reading a file.
* `Config.load_precedence`: the nearer file decides if it is there, else the user's own, else the
  defaults.
-/

namespace BlankLines.Config

section
variable {m : Type → Type} [Monad m] {disk : Disk m} {path : Path}

/-! ### Finding the file -/

/-- The first of several files that is there. -/
def firstPresent? (disk : Disk m) : List Path → m (Option Path)
  | [] => return none
  | path :: rest => do if ← disk.isPresent path then return some path else firstPresent? disk rest

/-- The file from which a configuration is loaded. -/
def found? (disk : Disk m) : m (Option Path) := do
  firstPresent? disk (← candidates disk)

/-- The configuration in a file, or the defaults if there is none. -/
def loadFrom? (disk : Disk m) : Option Path → m (Except Error Config)
  | some path => loadFrom disk path
  | none      => return .ok {}

theorem loadFrom_congr {disk' : Disk m} (h : disk'.readText path = disk.readText path) :
    loadFrom disk' path = loadFrom disk path := by
  rw [loadFrom, loadFrom, h]

variable [LawfulMonad m]

theorem loadFirst_eq_firstPresent (disk : Disk m) (paths : List Path) :
    loadFirst disk paths = firstPresent? disk paths >>= loadFrom? disk := by
  induction paths with
  | nil => simp [loadFirst, firstPresent?, loadFrom?]
  | cons path rest ih =>
      rw [loadFirst, firstPresent?, bind_assoc]
      refine bind_congr fun there => ?_
      cases there with
      | true => simp [loadFrom?]
      | false => simpa using ih

/-- **One file decides.**  To load a configuration is to find its file, for which nothing is read,
and then to load that file and no other. -/
theorem load_eq_found (disk : Disk m) : load disk = found? disk >>= loadFrom? disk := by
  simp only [load, found?, bind_assoc]
  exact bind_congr fun paths => loadFirst_eq_firstPresent disk paths

variable {here user : Option Path}

theorem candidates_eq (hhere : disk.currentDir = pure here) (huser : disk.configDir = pure user) :
    candidates disk =
      pure ((here.map fun dir => dir.join localName).toList ++
        (user.map fun dir => dir.join userName).toList) := by
  simp [candidates, hhere, huser]

theorem firstPresent?_of_present (h : disk.isPresent path = pure true) (rest : List Path) :
    firstPresent? disk (path :: rest) = pure (some path) := by
  simp [firstPresent?, h]

theorem firstPresent?_of_absent (h : disk.isPresent path = pure false) (rest : List Path) :
    firstPresent? disk (path :: rest) = firstPresent? disk rest := by
  simp [firstPresent?, h]

/-- The nearer file is found if it is there, whatever there is besides. -/
theorem found?_of_here (huser : disk.configDir = pure user) {dir : Path}
    (hhere : disk.currentDir = pure (some dir))
    (hthere : disk.isPresent (dir.join localName) = pure true) :
    found? disk = pure (some (dir.join localName)) := by
  rw [found?, candidates_eq hhere huser, pure_bind]
  exact firstPresent?_of_present hthere _

/-- Where the nearer file is missing, what is found is the user's own or nothing. -/
theorem found?_of_not_here (hhere : disk.currentDir = pure here)
    (huser : disk.configDir = pure user)
    (hmissing : ∀ dir ∈ here, disk.isPresent (dir.join localName) = pure false) :
    found? disk = firstPresent? disk (user.map fun dir => dir.join userName).toList := by
  rw [found?, candidates_eq hhere huser, pure_bind]
  cases here with
  | none => rfl
  | some dir => exact firstPresent?_of_absent (hmissing dir rfl) _

end

/-! ### Reading the file -/

variable {text : String} {c : Config} {e : Error}

theorem checkVersion_eq_error_iff :
    c.checkVersion = .error e ↔
      ∃ v, c.version = some v ∧ v ≠ configVersion ∧ e = .setting (.unsupportedVersion v) := by
  unfold checkVersion
  split
  next h => simp [h]
  next v h => by_cases hv : v = configVersion <;> simp [h, hv, eq_comm]

theorem ofFileText_eq_ok_iff :
    ofFileText text = .ok c ↔
      ofTomlText text = .ok c ∧ (c.version = none ∨ c.version = some configVersion) := by
  simp only [ofFileText, bind_eq_ok_iff, mapError_eq_ok_iff, pure, Except.pure, Except.ok.injEq]
  constructor
  · rintro ⟨c', hc, _, hv, rfl⟩
    exact ⟨hc, (checkVersion_eq_ok_iff c').1 hv⟩
  · rintro ⟨hc, hv⟩
    exact ⟨c, hc, (), (checkVersion_eq_ok_iff c).2 hv, rfl⟩

theorem ofFileText_eq_error_iff :
    ofFileText text = .error e ↔
      (∃ complaint, ofTomlText text = .error complaint ∧ e = .toml complaint) ∨
        ∃ c v, ofTomlText text = .ok c ∧ c.version = some v ∧ v ≠ configVersion ∧
          e = .setting (.unsupportedVersion v) := by
  simp only [ofFileText, bind_eq_error_iff, mapError_eq_error_iff, mapError_eq_ok_iff, pure,
    Except.pure, reduceCtorEq, and_false, exists_false, or_false, checkVersion_eq_error_iff,
    exists_and_left, eq_comm (a := e)]

/-- The configuration in a file of which this was read. -/
def ofRead (path : Path) (read : Except IoFault String) : Except Error Config :=
  (read.mapError (.unreadableFile path)).bind ofFileText

section
variable {m : Type → Type} [Monad m] [LawfulMonad m]

theorem loadFrom_eq_map (disk : Disk m) (path : Path) :
    loadFrom disk path = ofRead path <$> disk.readText path := by
  rw [loadFrom, map_eq_pure_bind]
  refine bind_congr fun read => ?_
  cases read <;> rfl

end

section
variable {path : Path} {read : Except IoFault String}

theorem ofRead_eq_ok_iff :
    ofRead path read = .ok c ↔
      ∃ text, read = .ok text ∧ ofTomlText text = .ok c ∧
        (c.version = none ∨ c.version = some configVersion) := by
  refine bind_eq_ok_iff.trans (exists_congr fun text => ?_)
  rw [mapError_eq_ok_iff, ofFileText_eq_ok_iff]

/-- A file that cannot be read, is no TOML or has another version is an error that says which. -/
theorem ofRead_eq_error_iff :
    ofRead path read = .error e ↔
      (∃ f, read = .error f ∧ e = .unreadableFile path f) ∨
        ∃ text, read = .ok text ∧
          ((∃ complaint, ofTomlText text = .error complaint ∧ e = .toml complaint) ∨
            ∃ c v, ofTomlText text = .ok c ∧ c.version = some v ∧ v ≠ configVersion ∧
              e = .setting (.unsupportedVersion v)) := by
  refine bind_eq_error_iff.trans (or_congr ?_ (exists_congr fun text => ?_))
  · rw [mapError_eq_error_iff]
    exact exists_congr fun f => and_congr_right fun _ => eq_comm
  · rw [mapError_eq_ok_iff, ofFileText_eq_error_iff]

/-- A configuration that was read has no version or the only one. -/
theorem version_of_ofRead (h : ofRead path read = .ok c) :
    c.version = none ∨ c.version = some configVersion := by
  obtain ⟨_, -, -, hv⟩ := ofRead_eq_ok_iff.1 h
  exact hv

end

/-! ### The file that decides -/

section
variable {disk : Disk Id} {dir : Path}

theorem load_eq (disk : Disk Id) : load disk = loadFrom? disk (found? disk) :=
  load_eq_found disk

theorem load_of_here (hhere : disk.currentDir = some dir)
    (hthere : disk.isPresent (dir.join localName) = true) :
    load disk = loadFrom disk (dir.join localName) := by
  rw [load_eq, found?_of_here rfl hhere hthere]
  rfl

theorem version_of_load (h : load disk = .ok c) :
    c.version = none ∨ c.version = some configVersion := by
  rw [load_eq] at h
  cases hfound : found? disk with
  | none =>
      rw [hfound] at h
      cases h
      exact .inl rfl
  | some path =>
      rw [hfound] at h
      exact version_of_ofRead ((loadFrom_eq_map disk path).symm.trans h)

end

/-- **The file that decides.**
* Which file that is is settled before one is read, and then nothing matters but what comes of
  reading that file.  No file is looked for where none is wanted, or where one is named.
* The file in the current directory decides if it is there, whatever can be said about any other;
  where it is missing the user's own decides if that is there; where both are missing it is the
  defaults.
* The file that decides can be unreadable, no TOML, or of another version: that is then the
  error.  A configuration that is loaded has no version or the only one. -/
theorem load_precedence {m : Type → Type} [Monad m] [LawfulMonad m] :
    (∀ disk : Disk m,
      load disk = found? disk >>= loadFrom? disk ∧
      (∀ path, loadFrom disk path = ofRead path <$> disk.readText path) ∧
      (∀ path?, choose disk true path? = pure (.ok {})) ∧
      (∀ path, choose disk false (some path) = loadFrom disk path ∧
        ∀ disk' : Disk m, disk'.readText path = disk.readText path →
          choose disk' false (some path) = choose disk false (some path)) ∧
      choose disk false none = load disk) ∧
    (∀ disk : Disk Id,
      (∀ dir, disk.currentDir = some dir → disk.isPresent (dir.join localName) = true →
        load disk = loadFrom disk (dir.join localName) ∧
        ∀ disk' : Disk Id, disk'.currentDir = some dir →
          disk'.isPresent (dir.join localName) = true →
          disk'.readText (dir.join localName) = disk.readText (dir.join localName) →
          load disk' = load disk) ∧
      ((∀ dir, disk.currentDir = some dir → disk.isPresent (dir.join localName) = false) →
        (∀ dir, disk.configDir = some dir → disk.isPresent (dir.join userName) = true →
          load disk = loadFrom disk (dir.join userName)) ∧
        ((∀ dir, disk.configDir = some dir → disk.isPresent (dir.join userName) = false) →
          load disk = .ok {})) ∧
      ∀ c, load disk = .ok c → c.version = none ∨ c.version = some configVersion) ∧
    ∀ path read,
      (∀ e, ofRead path read = .error e ↔
        (∃ f, read = .error f ∧ e = .unreadableFile path f) ∨
          ∃ text, read = .ok text ∧
            ((∃ complaint, ofTomlText text = .error complaint ∧ e = .toml complaint) ∨
              ∃ c v, ofTomlText text = .ok c ∧ c.version = some v ∧ v ≠ configVersion ∧
                e = .setting (.unsupportedVersion v))) ∧
      ∀ c, ofRead path read = .ok c → c.version = none ∨ c.version = some configVersion := by
  refine ⟨fun disk => ⟨load_eq_found disk, loadFrom_eq_map disk, fun _ => rfl,
    fun path => ⟨rfl, fun disk' hread => loadFrom_congr hread⟩, rfl⟩,
    fun disk => ⟨fun dir hhere hthere => ⟨load_of_here hhere hthere, ?_⟩, fun hmissing => ⟨?_, ?_⟩,
      fun _ => version_of_load⟩,
    fun path read => ⟨fun _ => ofRead_eq_error_iff, fun _ => version_of_ofRead⟩⟩
  · intro disk' hhere' hthere' hread
    rw [load_of_here hhere hthere, load_of_here hhere' hthere']
    exact loadFrom_congr hread
  · intro dir huser hthere
    rw [load_eq, found?_of_not_here rfl huser hmissing]
    exact congrArg (loadFrom? disk) (firstPresent?_of_present hthere [])
  · intro hnone
    rw [load_eq]
    cases huser : disk.configDir with
    | none =>
        rw [found?_of_not_here rfl huser hmissing]
        rfl
    | some dir =>
        rw [found?_of_not_here rfl huser hmissing]
        exact congrArg (loadFrom? disk) (firstPresent?_of_absent (hnone dir huser) [])

/-! ### Two files -/

/-- A current directory with these entries, and a user who turned a rule off. -/
def besideUserConfig (entries : List (String × Entry)) : FileSystem where
  root := .directory
    [("u", .directory [("config.toml", .file "[rules]\nstatement_spacing = false\n".toUTF8)]),
     ("w", .directory entries)]
  current := ⟨"/w"⟩
  config := some ⟨"/u"⟩

/-- The same with a file that is not text where a configuration is looked for first. -/
def withBadConfig : FileSystem :=
  besideUserConfig [(".blankline-guard.toml", .file ⟨#[0xFF]⟩)]

/-- A file in the current directory that is not text is the error, though the user's own could be
loaded; that one is loaded where there is no other. -/
theorem load_precedence_notText :
    load withBadConfig.disk =
      .error (.unreadableFile ⟨"/w/.blankline-guard.toml"⟩ .notText) ∧
    load (besideUserConfig []).disk = .ok { rules := { statementSpacing := false } } := by
  obtain ⟨-, hdisk, herror⟩ := load_precedence (m := Id)
  constructor
  · have hthere : withBadConfig.isPresent (Path.join ⟨"/w"⟩ localName) = true := by
      decide +kernel
    have hread : withBadConfig.readText (Path.join ⟨"/w"⟩ localName) = .error .notText := by
      decide +kernel
    rw [((hdisk withBadConfig.disk).1 ⟨"/w"⟩ rfl hthere).1, loadFrom_eq_map]
    exact ((herror _ _).1 _).2 (.inl ⟨.notText, hread, rfl⟩)
  · have hmissing : (besideUserConfig []).isPresent (Path.join ⟨"/w"⟩ localName) = false := by
      decide +kernel
    have hthere : (besideUserConfig []).isPresent (Path.join ⟨"/u"⟩ userName) = true := by
      decide +kernel
    rw [((hdisk (besideUserConfig []).disk).2.1 fun dir hdir =>
      Option.some.inj hdir ▸ hmissing).1 ⟨"/u"⟩ rfl hthere]
    change Id.run (loadFrom (besideUserConfig []).disk _) = .ok _
    decide +kernel

end BlankLines.Config
