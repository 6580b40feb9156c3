import BlankLines.Json.Literal

/-!
# Json — Node

A JSON text as a tree whose parts remember what is left of the text at them, so that a complaint
made much later can still say where it belongs.

What is broken is part of the tree: an item list may be closed, may end with the text, may lack a
comma, or may stop after one.  A reader that never asks for the broken part never complains about
it, and what follows a broken part is never looked at.

* `Node.ofText`: the tree of a text, and what follows its first value.
* `Node.skip`: why a value nobody asks for is refused, if it is.
-/

namespace BlankLines.Json

/-- A value without parts. -/
inductive Scalar where
  | null
  | bool (b : Bool)
  | number (n : Number)
  | text (s : String)
deriving Repr

/-- The name of a field: its characters, whether it can be passed over, and what follows it. -/
structure Key where
  name : Except Fault String
  skip : Option Fault
  after : List Char
deriving Repr

mutual

/-- A value and the text left where it starts. -/
inductive Node where
  /-- No value starts here. -/
  | absent (here : List Char)
  /-- A value without parts, or why it has none, and whether it can be passed over. -/
  | scalar (here after : List Char) (value : Except Fault Scalar) (skip : Option Fault)
  | array (here : List Char) (items : Items)
  | object (here : List Char) (fields : Fields)

/-- The items of an array from some point on. -/
inductive Items where
  /-- The closing bracket, and what follows it. -/
  | closed (after : List Char)
  /-- The text ends where a comma or the closing bracket belongs. -/
  | ended
  /-- Something else stands where a comma or the closing bracket belongs. -/
  | odd (here : List Char)
  /-- After a comma there is the closing bracket or nothing. -/
  | dangling (here : List Char)
  | item (node : Node) (rest : Items)

/-- The fields of an object from some point on. -/
inductive Fields where
  /-- The closing brace, and what follows it. -/
  | closed (after : List Char)
  /-- The text ends where a field, a comma or the closing brace belongs. -/
  | ended
  /-- Something else stands where a comma or the closing brace belongs. -/
  | odd (here : List Char)
  /-- Something other than a string stands where a name belongs. -/
  | unnamed (here : List Char)
  /-- After a comma there is the closing brace or nothing. -/
  | dangling (here : List Char)
  /-- After the name there is no colon. -/
  | unpaired (key : Key) (here : List Char)
  | field (key : Key) (node : Node) (rest : Fields)

end

instance : Inhabited Node := ⟨.absent []⟩

namespace Key

/-- Reads the name after its opening quote. -/
def read (cs : List Char) : Key :=
  let skipped := skipChars cs
  { name := (chars cs).map fun (name, _) => String.ofList name
    skip := match skipped with
      | .ok _ => none
      | .error f => some f
    after := match skipped with
      | .ok after => after
      | .error _ => [] }

end Key

namespace Node

/-- The cause of a fault in a number that is passed over: its end counts as a bad number. -/
def skippedNumber (f : Fault) : Fault :=
  if f.cause = .endOfValue then { f with cause := .invalidNumber } else f

/-- A word that stands for `value`; `rest` is what follows its first letter. -/
def word (here : List Char) (letters : List Char) (value : Scalar) (rest : List Char) : Node :=
  match expectWord letters rest with
  | .ok after => .scalar here after (.ok value) none
  | .error f  => .scalar here [] (.error f) (some f)

/-- A number. -/
def number (here : List Char) : Node :=
  match Numeral.read here with
  | .ok (n, after) => .scalar here after ((n.value after).map .number) none
  | .error f       => .scalar here [] (.error f) (some (skippedNumber f))

/-- A string; `rest` is what follows its opening quote. -/
def string (here rest : List Char) : Node :=
  let key := Key.read rest
  .scalar here key.after (key.name.map .text) key.skip

/-- The value without parts that `here` starts with, if one does. -/
def plain (here : List Char) : Node :=
  match here with
  | [] => .absent []
  | c :: rest =>
    if c = 'n' then word here ['u', 'l', 'l'] .null rest
    else if c = 't' then word here ['r', 'u', 'e'] (.bool true) rest
    else if c = 'f' then word here ['a', 'l', 's', 'e'] (.bool false) rest
    else if c = '"' then string here rest
    else if c = '-' || c.isDigit then number here
    else .absent here

/-- What follows a value without parts; nothing once it is broken. -/
def after : Node → List Char
  | .scalar _ after _ _ => after
  | _ => []

mutual

/-- The value that `cs` starts with and what follows it. -/
def read : Nat → List Char → Node × List Char
  | 0, cs => (.absent cs, [])
  | fuel + 1, cs =>
    match dropBlanks cs with
    | '[' :: rest =>
      let (items, after) := readItems fuel true rest
      (.array ('[' :: rest) items, after)
    | '{' :: rest =>
      let (fields, after) := readFields fuel true rest
      (.object ('{' :: rest) fields, after)
    | here => (plain here, (plain here).after)

/-- The items after the opening bracket (`first`) or after an item. -/
def readItems : Nat → Bool → List Char → Items × List Char
  | 0, _, _ => (.ended, [])
  | fuel + 1, first, cs =>
    match dropBlanks cs with
    | []          => (.ended, [])
    | ']' :: rest => (.closed rest, rest)
    | c :: rest   =>
      if first then readItem fuel (c :: rest)
      else if c = ',' then
        match dropBlanks rest with
        | []          => (.dangling [], [])
        | ']' :: more => (.dangling (']' :: more), [])
        | here        => readItem fuel here
      else (.odd (c :: rest), [])

/-- An item and those after it. -/
def readItem : Nat → List Char → Items × List Char
  | 0, _ => (.ended, [])
  | fuel + 1, cs =>
    let (node, after) := read fuel cs
    let (rest, after) := readItems fuel false after
    (.item node rest, after)

/-- The fields after the opening brace (`first`) or after a field. -/
def readFields : Nat → Bool → List Char → Fields × List Char
  | 0, _, _ => (.ended, [])
  | fuel + 1, first, cs =>
    match dropBlanks cs with
    | []          => (.ended, [])
    | '}' :: rest => (.closed rest, rest)
    | c :: rest   =>
      if first then readField fuel (c :: rest)
      else if c = ',' then
        match dropBlanks rest with
        | []          => (.dangling [], [])
        | '}' :: more => (.dangling ('}' :: more), [])
        | here        => readField fuel here
      else (.odd (c :: rest), [])

/-- A field and those after it. -/
def readField : Nat → List Char → Fields × List Char
  | 0, _ => (.ended, [])
  | fuel + 1, cs =>
    match cs with
    | '"' :: rest =>
      let key := Key.read rest
      match dropBlanks key.after with
      | ':' :: rest =>
        let (node, after) := read fuel rest
        let (rest, after) := readFields fuel false after
        (.field key node rest, after)
      | here => (.unpaired key here, [])
    | _ => (.unnamed cs, [])

end

/-- Steps that suffice to read `cs`: a character is met at most three times. -/
def steps (cs : List Char) : Nat :=
  3 * cs.length + 3

/-- The first value of a text, and what follows it. -/
def ofText (cs : List Char) : Node × List Char :=
  read (steps cs) cs

/-- A missing value: the text ends or goes on with something else. -/
def missing : List Char → Fault
  | [] => .peeked .endOfValue []
  | here => .peeked .expectedValue here

/-- A missing colon. -/
def missingColon : List Char → Fault
  | [] => .peeked .endOfObject []
  | here => .peeked .expectedColon here

mutual

/-- Why a value nobody asks for is refused. -/
def skip : Node → Option Fault
  | .absent here       => some (missing here)
  | .scalar _ _ _ skip => skip
  | .array _ items     => skipItems items
  | .object _ fields   => skipFields fields

/-- Why the items of a passed-over array are refused. -/
def skipItems : Items → Option Fault
  | .closed _       => none
  | .ended          => some (.peeked .endOfList [])
  | .odd here       => some (.peeked .expectedItemEnd here)
  | .dangling here  => some (missing here)
  | .item node rest => (skip node).or (skipItems rest)

/-- Why the fields of a passed-over object are refused. -/
def skipFields : Fields → Option Fault
  | .closed _            => none
  | .ended               => some (.peeked .endOfObject [])
  | .odd here            => some (.peeked .expectedFieldEnd here)
  | .unnamed here        => some (.peeked .keyNotText here)
  | .dangling []         => some (.peeked .endOfObject [])
  | .dangling here       => some (.peeked .keyNotText here)
  | .unpaired key here   => key.skip.or (some (missingColon here))
  | .field key node rest => (key.skip.or (skip node)).or (skipFields rest)

end

end Node

end BlankLines.Json
