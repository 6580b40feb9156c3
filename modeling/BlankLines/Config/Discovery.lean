import BlankLines.Config.FromToml
import BlankLines.Config.Validation

/-!
# Config — Discovery

Where the configuration of a run comes from: the file in the current directory, else the user's
own, else the defaults.  The first of the two files that is there decides, whatever is in it.

* `Config.load`: the file found.
* `Config.loadFrom`: a file given by name.
-/

namespace BlankLines.Config

/-- The name of a configuration file in the user's configuration directory. -/
def userName : Path := ⟨"config.toml"⟩

/-- The configuration of a text, if its version is the only one. -/
def ofFileText (text : String) : Except Error Config := do
  let c ← (ofTomlText text).mapError .toml
  c.checkVersion
  return c

variable {m : Type → Type} [Monad m]

/-- The configuration in a file. -/
def loadFrom (disk : Disk m) (path : Path) : m (Except Error Config) := do
  match ← disk.readText path with
  | .ok text => return ofFileText text
  | .error f => return .error (.unreadableFile path f)

/-- The places where a configuration is looked for, first the nearer one. -/
def candidates (disk : Disk m) : m (List Path) := do
  let here := (← disk.currentDir).map fun dir => dir.join localName
  let user := (← disk.configDir).map fun dir => dir.join userName
  return here.toList ++ user.toList

/-- The configuration in the first of several files that is there. -/
def loadFirst (disk : Disk m) : List Path → m (Except Error Config)
  | [] => return .ok {}
  | path :: rest => do
    if ← disk.isPresent path then loadFrom disk path else loadFirst disk rest

/-- The configuration that a run finds by itself. -/
def load (disk : Disk m) : m (Except Error Config) := do
  loadFirst disk (← candidates disk)

end BlankLines.Config
