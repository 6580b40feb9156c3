/-!
# Json — Value

JSON values and their two written forms.

* `Value.compact`: no blanks at all.
* `Value.pretty`: one item or field a line, indented by two.
* `quote`: a string with `"`, `\` and the control characters escaped, all else as it is.

Numbers are natural: nothing this library writes has a sign or a fraction.
-/

namespace BlankLines.Json

/-- A JSON value; fields keep their order. -/
inductive Value where
  | null
  | bool (b : Bool)
  | number (n : Nat)
  | text (s : String)
  | array (items : List Value)
  | object (fields : List (String × Value))
deriving Repr

/-- A hexadecimal digit in lower case. -/
def hexDigit (n : Nat) : Char :=
  Nat.digitChar n

/-- A character inside quotes. -/
def escapeChar (c : Char) : List Char :=
  match c with
  | '"'    => ['\\', '"']
  | '\\'   => ['\\', '\\']
  | '\x08' => ['\\', 'b']
  | '\x0c' => ['\\', 'f']
  | '\n'   => ['\\', 'n']
  | '\r'   => ['\\', 'r']
  | '\t'   => ['\\', 't']
  | c      =>
    if c.toNat < 0x20 then
      ['\\', 'u', '0', '0', hexDigit (c.toNat / 16), hexDigit (c.toNat % 16)]
    else [c]

/-- A quoted string. -/
def quote (s : String) : List Char :=
  '"' :: s.toList.flatMap escapeChar ++ ['"']

/-- A number's digits. -/
def digits (n : Nat) : List Char :=
  Nat.toDigits 10 n

/-- The words of JSON. -/
def boolWord : Bool → List Char
  | true  => ['t', 'r', 'u', 'e']
  | false => ['f', 'a', 'l', 's', 'e']

/-- The word for the absent value. -/
def nullWord : List Char :=
  ['n', 'u', 'l', 'l']

/-- A line break and the indentation of nesting level `level`. -/
def newLine (level : Nat) : List Char :=
  '\n' :: List.replicate (2 * level) ' '

namespace Value

mutual

/-- The form without blanks. -/
def compact : Value → List Char
  | .null          => nullWord
  | .bool b        => boolWord b
  | .number n      => digits n
  | .text s        => quote s
  | .array items   => '[' :: compactItems items
  | .object fields => '{' :: compactFields fields

/-- Items up to and including the closing bracket. -/
def compactItems : List Value → List Char
  | []            => [']']
  | value :: rest => compact value ++ compactMore rest

/-- What follows an item. -/
def compactMore : List Value → List Char
  | []            => [']']
  | value :: rest => ',' :: compact value ++ compactMore rest

/-- Fields up to and including the closing brace. -/
def compactFields : List (String × Value) → List Char
  | []            => ['}']
  | field :: rest => compactField field ++ compactMoreFields rest

/-- What follows a field. -/
def compactMoreFields : List (String × Value) → List Char
  | []            => ['}']
  | field :: rest => ',' :: compactField field ++ compactMoreFields rest

/-- A name and its value. -/
def compactField : String × Value → List Char
  | (name, value) => quote name ++ ':' :: compact value

end

mutual

/-- The form with one item or field a line, at nesting level `level`. -/
def pretty (level : Nat) : Value → List Char
  | .null          => nullWord
  | .bool b        => boolWord b
  | .number n      => digits n
  | .text s        => quote s
  | .array items   => '[' :: prettyItems level items
  | .object fields => '{' :: prettyFields level fields

/-- Items up to and including the closing bracket; an empty list stays on its line. -/
def prettyItems (level : Nat) : List Value → List Char
  | []            => [']']
  | value :: rest => newLine (level + 1) ++ pretty (level + 1) value ++ prettyMore level rest

/-- What follows an item. -/
def prettyMore (level : Nat) : List Value → List Char
  | []            => newLine level ++ [']']
  | value :: rest =>
    ',' :: newLine (level + 1) ++ pretty (level + 1) value ++ prettyMore level rest

/-- Fields up to and including the closing brace. -/
def prettyFields (level : Nat) : List (String × Value) → List Char
  | []            => ['}']
  | field :: rest => newLine (level + 1) ++ prettyField (level + 1) field ++ prettyMoreFields level rest

/-- What follows a field. -/
def prettyMoreFields (level : Nat) : List (String × Value) → List Char
  | []            => newLine level ++ ['}']
  | field :: rest =>
    ',' :: newLine (level + 1) ++ prettyField (level + 1) field ++ prettyMoreFields level rest

/-- A name and its value. -/
def prettyField (level : Nat) : String × Value → List Char
  | (name, value) => quote name ++ ':' :: ' ' :: pretty level value

end

/-- The compact form as a text. -/
def toText (v : Value) : String :=
  String.ofList v.compact

/-- The form for people as a text, without a final line break. -/
def toPrettyText (v : Value) : String :=
  String.ofList (v.pretty 0)

end Value

end BlankLines.Json
