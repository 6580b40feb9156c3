/-!
# Path

Paths as they are spelled, and their components.

A path keeps its spelling.  Its components leave out doubled and trailing slashes and every `.` but
a leading one; each remembers how far into the spelling it reaches, so that the parent of a path is
a piece of the path itself.

* `Path.join`, `Path.parent?`, `Path.extension?`.
* `Path.Same`: two spellings with the same components; `Path.same_refl` and its kin.
-/

namespace BlankLines

/-- A path as it is spelled. -/
structure Path where
  text : String
deriving DecidableEq, Repr, Inhabited

namespace Path

/-- What a component of a path says. -/
inductive Step where
  /-- The leading slash. -/
  | root
  /-- A leading `.`. -/
  | here
  /-- A `..`, wherever it stands. -/
  | up
  | name (text : List Char)
deriving DecidableEq, Repr

/-- A component and the number of characters of the path up to its end. -/
structure Component where
  step : Step
  stop : Nat
deriving DecidableEq, Repr

/-- The pieces of a text between its slashes. -/
def pieces : List Char → List (List Char)
  | [] => [[]]
  | c :: rest =>
    if c = '/' then [] :: pieces rest
    else
      match pieces rest with
      | [] => [[c]]
      | piece :: more => (c :: piece) :: more

/-- The step a piece makes; `isFirst` tells whether the path starts with it. -/
def stepOf? (isFirst : Bool) (piece : List Char) : Option Step :=
  if piece = [] then none
  else if piece = ['.'] then if isFirst then some .here else none
  else if piece = ['.', '.'] then some .up
  else some (.name piece)

/-- The components of pieces of which the first starts after `start` characters. -/
def componentsFrom (isFirst : Bool) (start : Nat) : List (List Char) → List Component
  | [] => []
  | piece :: rest =>
    let stop := start + piece.length
    let more := componentsFrom false (stop + 1) rest
    match stepOf? isFirst piece with
    | some step => ⟨step, stop⟩ :: more
    | none      => more

/-- Whether a path starts at the root. -/
def isAbsolute (p : Path) : Bool :=
  p.text.toList.head? = some '/'

/-- The components of a path in order. -/
def components (p : Path) : List Component :=
  let named := componentsFrom true 0 (pieces p.text.toList)
  if p.isAbsolute then ⟨.root, 1⟩ :: named else named

/-- The steps of a path in order. -/
def steps (p : Path) : List Step :=
  p.components.map Component.step

/-- Two spellings with the same components. -/
def Same (p q : Path) : Prop :=
  p.steps = q.steps

instance (p q : Path) : Decidable (Same p q) :=
  inferInstanceAs (Decidable (p.steps = q.steps))

theorem same_refl (p : Path) : Same p p := rfl

theorem Same.symm {p q : Path} (h : Same p q) : Same q p := Eq.symm h

theorem Same.trans {p q r : Path} (h : Same p q) (h' : Same q r) : Same p r := Eq.trans h h'

/-- `next` as seen from `base`: an absolute path stands for itself, any other follows the base
after one slash. -/
def join (base next : Path) : Path :=
  if next.isAbsolute then next
  else
    match base.text.toList.getLast? with
    | none     => next
    | some '/' => ⟨base.text ++ next.text⟩
    | some _   => ⟨base.text ++ "/" ++ next.text⟩

/-- The path without its last component; the root and the empty path have no parent. -/
def parent? (p : Path) : Option Path :=
  match p.components.reverse with
  | [] => none
  | last :: before =>
    if last.step = .root then none
    else
      match before with
      | []            => some ⟨""⟩
      | previous :: _ => some ⟨String.ofList (p.text.toList.take previous.stop)⟩

/-- The last component, if it is a name. -/
def fileName? (p : Path) : Option (List Char) :=
  match p.components.getLast? with
  | some ⟨.name n, _⟩ => some n
  | _ => none

/-- What follows the last dot of a name; a name whose only dot is its first character has none. -/
def extensionOf? (name : List Char) : Option (List Char) :=
  let after := (name.reverse.takeWhile (· ≠ '.')).reverse
  if name.length ≤ after.length + 1 then none else some after

/-- The extension of a path's last component. -/
def extension? (p : Path) : Option (List Char) :=
  p.fileName?.bind extensionOf?

@[simp] theorem join_of_isAbsolute {base next : Path} (h : next.isAbsolute = true) :
    base.join next = next := by
  simp [join, h]

end Path

end BlankLines
