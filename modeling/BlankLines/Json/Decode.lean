import BlankLines.Json.Node

/-!
# Json — Decode

From the tree of a JSON text to values of other types.

A decoder meets the parts of a tree in the order of the text and reports the first that is broken
or of the wrong kind.  Arrays and objects are entered against a budget of levels; a value that is
passed over costs none.

A record is an object with the names of its layout, or an array with its parts in order.  A layout
is closed when it refuses other names, and open when it passes them over.

* `record`: the two forms of a record.
* `choice`: one of a list of names, bare or as the only field of an object.
* `list`, `nullable`, `word`, `text`, `bool`: the rest.
-/

namespace BlankLines.Json
open BlankLines.Text (ticked)

/-- Reads a value from a node. -/
abbrev Decoder (α : Type) := Node → Except Fault α

/-- How many arrays and objects may be open at once. -/
def depthLimit : Nat := 127

namespace Node

/-- What is left of the text where the node starts. -/
def here : Node → List Char
  | .absent here       => here
  | .scalar here _ _ _ => here
  | .array here _      => here
  | .object here _     => here

/-- How messages describe a node of the wrong kind, and what is left of the text by then: a value
without parts has been read, an array or object has not been entered. -/
def found : Node → Except Fault (String × List Char)
  | .absent here           => .error (missing here)
  | .array here _          => .ok ("sequence", here)
  | .object here _         => .ok ("map", here)
  | .scalar _ after value _ => value.map fun
    | .null     => ("null", after)
    | .bool b   => ("boolean " ++ ticked (if b then "true" else "false"), after)
    | .number n => (n.describe, after)
    | .text s   => ("string " ++ Text.quoted s, after)

end Node

/-- Refuses a node: something else was wanted. -/
def mismatch {α : Type} (wanted : String) (node : Node) : Except Fault α := do
  let (found, left) ← node.found
  throw (.consumed (.wrongType found wanted) left)

/-- An unsigned 64-bit number. -/
def word : Decoder UInt64
  | .scalar _ _ (.ok (.number (.natural n))) _ => .ok n
  | .scalar _ after (.ok (.number (.negative n))) _ =>
    .error (.consumed (.wrongValue (Number.negative n).describe "usize") after)
  | node => mismatch "usize" node

/-- A string, called `wanted` in messages. -/
def text (wanted : String) : Decoder String
  | .scalar _ _ (.ok (.text s)) _ => .ok s
  | node => mismatch wanted node

/-- A truth value. -/
def bool : Decoder Bool
  | .scalar _ _ (.ok (.bool b)) _ => .ok b
  | node => mismatch "a boolean" node

/-- Nothing for null. -/
def nullable {α : Type} (d : Decoder α) : Decoder (Option α)
  | .scalar _ _ (.ok .null) _ => .ok none
  | node => (d node).map some

/-- Why no item comes where one may come. -/
def itemFault : Items → Option Fault
  | .closed _      => none
  | .ended         => some (.peeked .endOfList [])
  | .odd here      => some (.peeked .expectedItemEnd here)
  | .dangling []   => some (.peeked .endOfValue [])
  | .dangling here => some (.peeked .trailingComma here)
  | .item _ _      => none

/-- Every item of a list. -/
def listItems {α : Type} (d : Decoder α) : Items → Except Fault (List α)
  | .item node rest => do
    let a ← d node
    let as ← listItems d rest
    return a :: as
  | items =>
    match itemFault items with
    | some f => .error f
    | none   => .ok []

/-- A list; `levels` counts the list itself. -/
def list {α : Type} (levels : Nat) (d : Decoder α) : Decoder (List α)
  | .array here items =>
    if levels = 0 then .error (.peeked .tooDeep here) else listItems d items
  | node => mismatch "a sequence" node

/-- The value that `name` stands for. -/
def lookUp {α : Type} (table : List (String × α)) (name : String) (after : List Char) :
    Except Fault α :=
  match table.lookup name with
  | some a => .ok a
  | none   => .error (.consumed (.unknownVariant name (table.map Prod.fst)) after)

/-- The only field of an object, which names a value and holds null. -/
def choiceField {α : Type} (table : List (String × α)) : Fields → Except Fault α
  | .field key node rest => do
    let name ← key.name
    let a ← lookUp table name key.after
    match node with
    | .scalar _ after (.ok .null) _ =>
      match rest with
      | .closed _ => return a
      | .ended    => throw (.consumed .endOfObject [])
      | _         => throw (.consumed .expectedValue (dropBlanks after))
    | node => mismatch "unit" node
  | .unpaired key here => do
    let name ← key.name
    let _ ← lookUp table name key.after
    throw (Node.missingColon here)
  | .closed after => .error (.consumed .expectedValue after)
  | .unnamed here => .error (.peeked .keyNotText here)
  | _ => .error (.peeked .endOfObject [])

/-- One of the names of `table`, as a string or as the only field of an object. -/
def choice {α : Type} (levels : Nat) (table : List (String × α)) : Decoder α
  | .absent here => .error (Node.missing here)
  | .array here _ => .error (.peeked .expectedValue here)
  | .object here fields =>
    if levels = 0 then .error (.peeked .tooDeep here) else choiceField table fields
  | .scalar here after value _ =>
    match value with
    | .ok (.text s) => lookUp table s after
    | .error f      => .error (if here.head? = some '"' then f else .peeked .expectedValue here)
    | .ok _         => .error (.peeked .expectedValue here)

/-- A part of a record: its name, how it is read, and its value where it is left out. -/
structure Part (α : Type) where
  name : String
  decode : Decoder α
  absent : Option α := none

/-- The parts of a record in order, with the type of the parts read so far and that of all. -/
inductive Layout : Type → Type → Type 1 where
  | done : Layout Unit Unit
  | part {α σ τ : Type} (p : Part α) (rest : Layout σ τ) : Layout (Option α × σ) (α × τ)

namespace Layout

/-- The names of the parts. -/
def names {σ τ : Type} : Layout σ τ → List String
  | .done        => []
  | .part p rest => p.name :: names rest

/-- No part read yet. -/
def start {σ τ : Type} : Layout σ τ → σ
  | .done        => ()
  | .part _ rest => (none, start rest)

/-- Whether the part called `name` has been read. -/
def isRead {σ τ : Type} : Layout σ τ → String → σ → Bool
  | .done,        _,    _         => false
  | .part p rest, name, (slot, s) => if p.name = name then slot.isSome else isRead rest name s

/-- Reads the part called `name`. -/
def put {σ τ : Type} : Layout σ τ → String → Node → σ → Except Fault σ
  | .done,        _,    _,    s         => .ok s
  | .part p rest, name, node, (slot, s) =>
    if p.name = name then (p.decode node).map fun a => (some a, s)
    else (put rest name node s).map fun s => (slot, s)

/-- All parts, or the name of the first that is missing. -/
def finish {σ τ : Type} : Layout σ τ → σ → Except String τ
  | .done,        _         => .ok ()
  | .part p rest, (slot, s) =>
    match slot.or p.absent with
    | some a => (finish rest s).map fun t => (a, t)
    | none   => .error p.name

end Layout

/-- A complaint about the name of a field: by then blanks, and a closing brace if it comes next,
have been consumed. -/
def keyFault (cause : Cause) (after : List Char) : Fault :=
  match dropBlanks after with
  | '}' :: rest => .consumed cause rest
  | here        => .consumed cause here

/-- Why a field called `name` may not come now. -/
def Layout.refuses {σ τ : Type} (l : Layout σ τ) (isClosed : Bool) (name : String) (s : σ)
    (after : List Char) : Option Fault :=
  if l.names.contains name then
    if l.isRead name s then some (keyFault (.duplicateField name) after) else none
  else if isClosed then some (keyFault (.unknownField name l.names) after)
  else none

/-- The name of a field that may come now. -/
def fieldName {σ τ : Type} (l : Layout σ τ) (isClosed : Bool) (key : Key) (s : σ) :
    Except Fault String := do
  let name ← key.name
  match l.refuses isClosed name s key.after with
  | some f => throw f
  | none   => return name

/-- The fields of a record from some point on. -/
def recordFields {σ τ : Type} (l : Layout σ τ) (isClosed : Bool) : Fields → σ → Except Fault τ
  | .closed after, s =>
    match l.finish s with
    | .ok t       => .ok t
    | .error name => .error (.consumed (.missingField name) after)
  | .ended,         _ => .error (.peeked .endOfObject [])
  | .odd here,      _ => .error (.peeked .expectedFieldEnd here)
  | .unnamed here,  _ => .error (.peeked .keyNotText here)
  | .dangling [],   _ => .error (.peeked .endOfValue [])
  | .dangling here, _ => .error (.peeked .trailingComma here)
  | .unpaired key here, s => do
    let _ ← fieldName l isClosed key s
    throw (Node.missingColon here)
  | .field key node rest, s => do
    let name ← fieldName l isClosed key s
    if l.names.contains name then
      recordFields l isClosed rest (← l.put name node s)
    else
      match node.skip with
      | some f => throw f
      | none   => recordFields l isClosed rest s

/-- What may follow the last part of a record in an array: only the closing bracket. -/
def recordEnd : Items → Except Fault Unit
  | .closed _      => .ok ()
  | .ended         => .error (.peeked .endOfList [])
  | .odd here      => .error (.peeked .trailingCharacters here)
  | .dangling []   => .error (.peeked .trailingCharacters [])
  | .dangling here => .error (.peeked .trailingComma here)
  | .item node _   => .error (.peeked .trailingCharacters node.here)

/-- The parts of a record from part number `n` on, in order; parts may be left out at the end. -/
def recordItems {σ τ : Type} (wanted : String) : Layout σ τ → Nat → Items → Except Fault τ
  | .done,        _, items => recordEnd items
  | .part p rest, n, items =>
    match items with
    | .item node more => do
      let a ← p.decode node
      let t ← recordItems wanted rest (n + 1) more
      return (a, t)
    | .closed after =>
      match p.absent with
      | some a => (recordItems wanted rest (n + 1) items).map fun t => (a, t)
      | none   => .error (.consumed (.wrongLength n wanted) after)
    | items =>
      match itemFault items with
      | some f => .error f
      | none   => .error (.peeked .endOfList [])

/-- A record called `name`; `levels` counts the record itself. -/
def record {σ τ : Type} (levels : Nat) (name : String) (isClosed : Bool) (l : Layout σ τ) :
    Decoder τ
  | .object here fields =>
    if levels = 0 then .error (.peeked .tooDeep here) else recordFields l isClosed fields l.start
  | .array here items =>
    if levels = 0 then .error (.peeked .tooDeep here)
    else
      let count := l.names.length
      let elements := if count = 1 then " element" else " elements"
      recordItems ("struct " ++ name ++ " with " ++ toString count ++ elements) l 0 items
  | node => mismatch ("struct " ++ name) node

/-- Reads a whole text: one value, with nothing but blanks around it. -/
def decodeChars {α : Type} (d : Decoder α) (cs : List Char) : Except Fault α := do
  let (node, after) := Node.ofText cs
  let a ← d node
  match dropBlanks after with
  | []   => return a
  | here => throw (.peeked .trailingCharacters here)

/-- Reads a whole text; a refusal says where. -/
def decodeText {α : Type} (d : Decoder α) (text : String) : Except Complaint α :=
  (decodeChars d text.toList).mapError (·.locate text.toList)

end BlankLines.Json
