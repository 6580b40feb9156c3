import BlankLines.Toml.Scalar

/-!
# Toml — Document

Reading a TOML 1.1 document: keys, values with parts, and the expressions of the document, which
are then put together to one table.

* `value`: a value, with arrays and tables in braces.
* `expressions`: the headers and the keys with values, in order.
* `Document.ofText`: the table of a whole text; nothing if the text is malformed.
-/

namespace BlankLines.Toml
open BlankLines.Text

/-- How deeply arrays and tables in braces may nest. -/
def nestingLimit : Nat := 80

/-- What is left after blanks on the same line. -/
def dropSpaces (cs : List Char) : List Char :=
  cs.dropWhile fun c => c = ' ' || c = '\t'

/-- What is left after a comment, at the line break or the end; nothing if it holds a control
character. -/
def dropComment : List Char → Option (List Char)
  | [] => some []
  | '\n' :: rest => some ('\n' :: rest)
  | '\r' :: '\n' :: rest => some ('\r' :: '\n' :: rest)
  | c :: rest => if isPlain c then dropComment rest else none

/-- What is left after blanks, line breaks and comments; `inComment` tells where we are. -/
def dropTrivia (inComment : Bool) : List Char → Option (List Char)
  | [] => some []
  | '\n' :: rest         => dropTrivia false rest
  | '\r' :: '\n' :: rest => dropTrivia false rest
  | c :: rest =>
    if inComment then if isPlain c then dropTrivia true rest else none
    else if c = ' ' || c = '\t' then dropTrivia false rest
    else if c = '#' then dropTrivia true rest
    else some (c :: rest)

/-- What is left after the rest of a line that says nothing more. -/
def lineEnd (cs : List Char) : Option (List Char) := do
  let cs := dropSpaces cs
  let cs ← match cs with
    | '#' :: rest => dropComment rest
    | _ => some cs
  match cs with
  | [] => some []
  | '\n' :: rest => some rest
  | '\r' :: '\n' :: rest => some rest
  | _ => none

/-- Whether a character may stand in a key without quotes. -/
def isBare (c : Char) : Bool :=
  c.isAlphanum || c = '_' || c = '-'

/-- A part of a key. -/
def keyPart (cs : List Char) : Option (KeyPart × List Char) :=
  match cs with
  | '"' :: _ => (shortText cs).map fun (name, rest) => (⟨String.ofList name, ⟨cs, rest⟩⟩, rest)
  | '\x27' :: _ => (shortText cs).map fun (name, rest) => (⟨String.ofList name, ⟨cs, rest⟩⟩, rest)
  | _ =>
    let name := cs.takeWhile isBare
    let rest := cs.dropWhile isBare
    if name.isEmpty then none else some (⟨String.ofList name, ⟨cs, rest⟩⟩, rest)

/-- The parts of a dotted key, and what is left after it. -/
def dottedKey : Nat → List Char → Option (List KeyPart × List Char)
  | 0, _ => none
  | fuel + 1, cs => do
    let (part, rest) ← keyPart cs
    match dropSpaces rest with
    | '.' :: more => do
      let (parts, rest) ← dottedKey fuel (dropSpaces more)
      return (part :: parts, rest)
    | _ => return ([part], rest)

/-- The way to a key and its last part. -/
def splitKey (parts : List KeyPart) : Option (List KeyPart × KeyPart) :=
  parts.getLast?.map fun part => (parts.dropLast, part)

mutual

/-- The value that `cs` starts with, inside `depth` arrays and tables in braces. -/
def value : Nat → Nat → List Char → Option (Item × List Char)
  | 0, _, _ => none
  | fuel + 1, depth, cs =>
    match cs with
    | '[' :: rest =>
      if nestingLimit ≤ depth then none
      else do
        let (items, after) ← arrayItems fuel (depth + 1) rest
        return (.array ⟨cs, after⟩ false items, after)
    | '{' :: rest =>
      if nestingLimit ≤ depth then none
      else do
        let (entries, after) ← tableEntries fuel (depth + 1) [] rest
        return (.table ⟨cs, after⟩ .inline entries, after)
    | _ => scalar cs

/-- The items of an array, after its bracket or a comma. -/
def arrayItems : Nat → Nat → List Char → Option (List Item × List Char)
  | 0, _, _ => none
  | fuel + 1, depth, cs => do
    match ← dropTrivia false cs with
    | ']' :: rest => return ([], rest)
    | cs =>
      let (item, rest) ← value fuel depth cs
      match ← dropTrivia false rest with
      | ',' :: rest => do
        let (items, after) ← arrayItems fuel depth rest
        return (item :: items, after)
      | ']' :: rest => return ([item], rest)
      | _ => none

/-- The entries of a table in braces on top of those before, after its brace or a comma. -/
def tableEntries : Nat → Nat → Entries → List Char → Option (Entries × List Char)
  | 0, _, _, _ => none
  | fuel + 1, depth, before, cs => do
    match ← dropTrivia false cs with
    | '\x7d' :: rest => return (before, rest)
    | cs =>
      let (parts, rest) ← dottedKey fuel cs
      let (path, part) ← splitKey parts
      let rest ← expect '=' (dropSpaces rest)
      let (item, rest) ← value fuel depth (dropSpaces rest)
      let entries ← before.insert .inline path part item
      match ← dropTrivia false rest with
      | ',' :: rest    => tableEntries fuel depth entries rest
      | '\x7d' :: rest => return (entries, rest)
      | _ => none

end

/-- A line of a document that says something. -/
inductive Expression where
  | header (path : List KeyPart) (part : KeyPart) (extent : Extent)
  | repeated (path : List KeyPart) (part : KeyPart) (extent : Extent)
  | pair (path : List KeyPart) (part : KeyPart) (item : Item)

/-- The header that `cs` starts with, and what is left after it. -/
def header (fuel : Nat) (cs : List Char) : Option (Expression × List Char) :=
  match cs with
  | '[' :: '[' :: rest => do
    let (parts, rest) ← dottedKey fuel (dropSpaces rest)
    let (path, part) ← splitKey parts
    let rest ← expect ']' (← expect ']' (dropSpaces rest))
    return (.repeated path part ⟨cs, rest⟩, rest)
  | '[' :: rest => do
    let (parts, rest) ← dottedKey fuel (dropSpaces rest)
    let (path, part) ← splitKey parts
    let rest ← expect ']' (dropSpaces rest)
    return (.header path part ⟨cs, rest⟩, rest)
  | _ => none

/-- The key and value that `cs` starts with, and what is left after them. -/
def pair (fuel : Nat) (cs : List Char) : Option (Expression × List Char) := do
  let (parts, rest) ← dottedKey fuel cs
  let (path, part) ← splitKey parts
  let rest ← expect '=' (dropSpaces rest)
  let (item, rest) ← value fuel 0 (dropSpaces rest)
  return (.pair path part item, rest)

/-- The expressions of a document, of at most `lines` lines. -/
def expressions (fuel : Nat) : Nat → List Char → Option (List Expression)
  | 0, _ => none
  | lines + 1, cs => do
    match ← dropTrivia false cs with
    | [] => return []
    | c :: rest =>
      let (e, rest) ← if c = '[' then header fuel (c :: rest) else pair fuel (c :: rest)
      let more ← expressions fuel lines (← lineEnd rest)
      return e :: more

/-- The table being filled and the entries of the document. -/
structure Assembly where
  path : List KeyPart := []
  entries : Entries := []

/-- Takes an expression into the document: a value goes into the table of the last header. -/
def Assembly.add (a : Assembly) (e : Expression) : Option Assembly :=
  match e with
  | .header path part extent => do
    let entries ← a.entries.openTable path part extent
    return ⟨path ++ [part], entries⟩
  | .repeated path part extent => do
    let entries ← a.entries.appendTable path part extent
    return ⟨path ++ [part], entries⟩
  | .pair path part item => do
    let entries ← Entries.descend false
      (fun _ entries => entries.insert .header path part item) a.path .header a.entries
    return { a with entries }

/-- A document's text without a leading byte order mark. -/
def withoutMark : List Char → List Char
  | '\uFEFF' :: rest => rest
  | cs => cs

/-- The table of a whole document. -/
def document (cs : List Char) : Option Entries := do
  let fuel := 2 * cs.length + 2
  let es ← expressions fuel (cs.length + 1) cs
  let a ← es.foldlM Assembly.add {}
  return a.entries

end BlankLines.Toml
