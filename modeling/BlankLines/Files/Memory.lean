import BlankLines.Files.Disk

/-!
# Files — Memory

A file system in memory: directories, files, and a current directory.  There are no links, so `..`
leads to the directory a name was found in.

* `FileSystem.locate`: where a path leads, step by step.
* `FileSystem.disk`: the file system as the program sees it.
* `Writing`: changes, which stay made when a later one fails.
-/

namespace BlankLines

/-- A file with its bytes, or a directory with its entries. -/
inductive Entry where
  | file (content : ByteArray)
  | directory (entries : List (String × Entry))

namespace Entry

/-- What the names lead to. -/
def get? : List String → Entry → Option Entry
  | [], e => some e
  | name :: rest, .directory entries => (entries.lookup name).bind (get? rest)
  | _ :: _, .file _ => none

/-- Replaces or adds the value under a name. -/
def setNamed {α : Type} (name : String) (f : Option α → α) : List (String × α) → List (String × α)
  | [] => [(name, f none)]
  | (n, a) :: rest => if n = name then (n, f (some a)) :: rest else (n, a) :: setNamed name f rest

/-- Puts `new` where the names lead; directories on the way are made as needed. -/
def set (new : Entry) : List String → Entry → Entry
  | [], _ => new
  | _ :: _, .file content => .file content
  | name :: rest, .directory entries =>
    .directory (setNamed name (fun old => set new rest (old.getD (.directory []))) entries)

mutual

/-- The files of an entry: the names that lead to each, and its path seen from `path`. -/
def files (names : List String) (path : Path) : Entry → List (List String × Path)
  | .file _            => [(names, path)]
  | .directory entries => filesOfAll names path entries

/-- The files of the entries of a directory. -/
def filesOfAll (names : List String) (path : Path) :
    List (String × Entry) → List (List String × Path)
  | []            => []
  | entry :: rest => filesOfNamed names path entry ++ filesOfAll names path rest

/-- The files of a named entry. -/
def filesOfNamed (names : List String) (path : Path) :
    String × Entry → List (List String × Path)
  | (name, entry) => files (names ++ [name]) (path.join ⟨name⟩) entry

end

/-- Whether the names of one file sort before those of another: the first name in which they differ
decides. -/
def sortsBefore (a b : List String) : Bool :=
  a.lex b fun s t => decide (s < t)

mutual

/-- An entry and all that is below it: the names that lead to each, and what a walk from `path`
meets there. -/
def met (names : List String) (path : Path) : Entry → List (List String × Met)
  | .file _            => [(names, ⟨path, .regular⟩)]
  | .directory entries => (names, ⟨path, .directory⟩) :: metInAll names path entries

/-- What a walk meets at and below the entries of a directory. -/
def metInAll (names : List String) (path : Path) :
    List (String × Entry) → List (List String × Met)
  | []            => []
  | entry :: rest => metInNamed names path entry ++ metInAll names path rest

/-- What a walk meets at and below a named entry. -/
def metInNamed (names : List String) (path : Path) :
    String × Entry → List (List String × Met)
  | (name, entry) => met (names ++ [name]) (path.join ⟨name⟩) entry

end

/-- Puts what names lead to behind all that sorts before it. -/
def insertInOrder {α : Type} (x : List String × α) :
    List (List String × α) → List (List String × α)
  | []        => [x]
  | y :: rest => if sortsBefore y.1 x.1 then y :: insertInOrder x rest else x :: y :: rest

/-- Sorts what names lead to by the names. -/
def inOrder {α : Type} : List (List String × α) → List (List String × α)
  | []        => []
  | x :: rest => insertInOrder x (inOrder rest)

/-- What a walk meets, in order: the entries of each directory by name, and what is below a
directory right behind it. -/
def walk (path : Path) (e : Entry) : List Met :=
  (inOrder (e.met [] path)).map Prod.snd

end Entry

/-- A file system with a current directory and a directory for the user's configuration. -/
structure FileSystem where
  root : Entry := .directory []
  /-- The current directory, from the root on. -/
  current : Path
  config : Option Path := none

/-- Where a path leads. -/
structure Location where
  /-- The names from the root on. -/
  names : List String
  entry : Option Entry
  /-- Whether the path goes on with a slash, which only a directory may. -/
  slash : Bool

namespace FileSystem

/-- Follows pieces of a path from a directory, whose names come last first. -/
def follow (root : Entry) (dir : List String) : List (List Char) → Except IoFault Location
  | [] => .ok ⟨dir.reverse, root.get? dir.reverse, false⟩
  | piece :: rest =>
    if piece = [] || piece = ['.'] then follow root dir rest
    else if piece = ['.', '.'] then follow root dir.tail rest
    else
      let dir := String.ofList piece :: dir
      let entry := root.get? dir.reverse
      if rest.all List.isEmpty then .ok ⟨dir.reverse, entry, !rest.isEmpty⟩
      else
        match entry with
        | none                => .error .notFound
        | some (.file _)      => .error .notDirectory
        | some (.directory _) => follow root dir rest

/-- Where a path leads from the current directory. -/
def locate (fs : FileSystem) (path : Path) : Except IoFault Location :=
  if path.text.toList.contains '\x00' then .error .nulInPath
  else if path.text.isEmpty then .error .notFound
  else follow fs.root [] (Path.pieces (fs.current.join path).text.toList)

/-- The text of a file. -/
def readText (fs : FileSystem) (path : Path) : Except IoFault String := do
  let l ← fs.locate path
  match l.entry with
  | none                => throw .notFound
  | some (.directory _) => throw .isDirectory
  | some (.file content) =>
    if l.slash then throw .notDirectory
    else
      match String.fromUTF8? content with
      | some text => return text
      | none      => throw .notText

/-- Whether a path leads to something. -/
def isPresent (fs : FileSystem) (path : Path) : Bool :=
  match fs.locate path with
  | .ok ⟨_, some (.file _), slash⟩     => !slash
  | .ok ⟨_, some (.directory _), _⟩    => true
  | _                                  => false

/-- Whether a path leads to a directory. -/
def isDirectory (fs : FileSystem) (path : Path) : Bool :=
  match fs.locate path with
  | .ok ⟨_, some (.directory _), _⟩ => true
  | _                               => false

/-- The names that a path leads to as a file, which may be missing. -/
def namesOfFile (fs : FileSystem) (path : Path) : Except IoFault (List String) := do
  let l ← fs.locate path
  match l.entry with
  | some (.directory _) => throw .isDirectory
  | _ => if l.slash then throw .isDirectory else return l.names

/-- Puts an entry where the names lead. -/
def put (fs : FileSystem) (names : List String) (e : Entry) : FileSystem :=
  { fs with root := Entry.set e names fs.root }

@[simp] theorem root_put (fs : FileSystem) (names : List String) (e : Entry) :
    (fs.put names e).root = Entry.set e names fs.root := rfl

/-- What a walk meets at and below a path. -/
def walk (fs : FileSystem) (path : Path) : List Met :=
  match fs.locate path with
  | .ok ⟨_, some e, _⟩ => e.walk path
  | _                  => []

/-- The file system as the program sees it. -/
def disk (fs : FileSystem) : Disk Id where
  readText := fs.readText
  isPresent := fs.isPresent
  filesUnder path := (fs.walk path).map .ok
  currentDir := some fs.current
  configDir := fs.config

end FileSystem

/-- A write to a file that is open breaks off: so many bytes were taken by then, and why no more. -/
structure Break where
  taken : Nat
  fault : IoFault
deriving DecidableEq, Repr

/-- Changes to a file system; those made before a failure stay. -/
abbrev Writing := ExceptT IoFault (StateM FileSystem)

namespace Writing

/-- Puts an entry where the names lead. -/
def put (names : List String) (e : Entry) : Writing Unit :=
  modify fun fs => fs.put names e

/-- Makes a directory in one that is there. -/
def makeDirectory (path : Path) : Writing Unit := do
  let l ← (← get).locate path
  match l.entry with
  | some _ => throw .alreadyExists
  | none   => put l.names (.directory [])

/-- Accepts the failure to make a directory that is there. -/
def unlessPresent (path : Path) (f : IoFault) : Writing Unit := do
  if (← get).isDirectory path then return else throw f

/-- Makes a directory, and those above it if they are missing; `depth` bounds their number. -/
def makeDirectories : Nat → Path → Writing Unit
  | 0, _ => return
  | depth + 1, path => do
    if path.text.isEmpty then return
    else
      tryCatch (makeDirectory path) fun f => do
        match f, path.parent? with
        | .notFound, some parent =>
          makeDirectories depth parent
          tryCatch (makeDirectory path) (unlessPresent path)
        | f, _ => unlessPresent path f

/-- Makes a file, or empties the one that is there: the names that lead to it. -/
def openFile (path : Path) : Writing (List String) := do
  let names ← (← get).namesOfFile path
  put names (.file .empty)
  return names

/-- Fills an empty file; where the write breaks off, with what was taken by then. -/
def fill (names : List String) (text : String) : Option Break → Writing Unit
  | none   => put names (.file text.toUTF8)
  | some b => do
    put names (.file (text.toUTF8.extract 0 b.taken))
    throw b.fault

/-- Makes a file or replaces its content. -/
def writeText (path : Path) (text : String) (break? : Option Break) : Writing Unit := do
  fill (← openFile path) text break?

end Writing

end BlankLines
