import BlankLines.Text.Place
import BlankLines.Text.Quoted

/-!
# Json — Fault

Why a JSON text is refused, and where.

A fault carries the text that was left when it arose and how many further bytes it points past.
A reader that has only looked at the next byte points past it (`Fault.peeked`); one that has
consumed everything up to its complaint points at what is left (`Fault.consumed`).

* `Cause.message`: the wording of each cause.
* `Fault.locate`, `Complaint.message`: the place of a fault, and the wording with it.
-/

namespace BlankLines.Json
open BlankLines.Text

/-- What is wrong with a JSON text. -/
inductive Cause where
  | endOfValue
  | endOfList
  | endOfObject
  | endOfText
  | expectedValue
  | expectedWord
  | expectedColon
  | expectedItemEnd
  | expectedFieldEnd
  | keyNotText
  | trailingComma
  | trailingCharacters
  | invalidNumber
  | numberOutOfRange
  | controlCharacter
  | invalidEscape
  | loneSurrogate
  | endOfSurrogatePair
  | tooDeep
  | wrongType (found wanted : String)
  | wrongValue (found wanted : String)
  | wrongLength (length : Nat) (wanted : String)
  | unknownField (name : String) (known : List String)
  | unknownVariant (name : String) (known : List String)
  | missingField (name : String)
  | duplicateField (name : String)
deriving DecidableEq, Repr

/-- The names that would have been accepted, as messages list them. -/
def oneOf : List String → String
  | [] => "there are no fields"
  | [a] => "expected " ++ ticked a
  | [a, b] => "expected " ++ ticked a ++ " or " ++ ticked b
  | names => "expected one of " ++ ", ".intercalate (names.map ticked)

/-- The wording of a cause. -/
def Cause.message : Cause → String
  | .endOfValue                => "EOF while parsing a value"
  | .endOfList                 => "EOF while parsing a list"
  | .endOfObject               => "EOF while parsing an object"
  | .endOfText                 => "EOF while parsing a string"
  | .expectedValue             => "expected value"
  | .expectedWord              => "expected ident"
  | .expectedColon             => "expected " ++ ticked ":"
  | .expectedItemEnd           => "expected " ++ ticked "," ++ " or " ++ ticked "]"
  | .expectedFieldEnd          => "expected " ++ ticked "," ++ " or " ++ ticked "\x7d"
  | .keyNotText                => "key must be a string"
  | .trailingComma             => "trailing comma"
  | .trailingCharacters        => "trailing characters"
  | .invalidNumber             => "invalid number"
  | .numberOutOfRange          => "number out of range"
  | .controlCharacter          =>
      "control character (\\u0000-\\u001F) found while parsing a string"
  | .invalidEscape             => "invalid escape"
  | .loneSurrogate             => "lone leading surrogate in hex escape"
  | .endOfSurrogatePair        => "unexpected end of hex escape"
  | .tooDeep                   => "recursion limit exceeded"
  | .wrongType found wanted    => "invalid type: " ++ found ++ ", expected " ++ wanted
  | .wrongValue found wanted   => "invalid value: " ++ found ++ ", expected " ++ wanted
  | .wrongLength length wanted => "invalid length " ++ toString length ++ ", expected " ++ wanted
  | .unknownField name known   => "unknown field " ++ ticked name ++ ", " ++ oneOf known
  | .unknownVariant name known => "unknown variant " ++ ticked name ++ ", " ++ oneOf known
  | .missingField name         => "missing field " ++ ticked name
  | .duplicateField name       => "duplicate field " ++ ticked name

/-- A cause and the place it is reported at. -/
structure Complaint where
  cause : Cause
  place : Place
deriving DecidableEq, Repr

/-- The wording of a complaint. -/
def Complaint.message (c : Complaint) : String :=
  c.cause.message ++ " at line " ++ toString c.place.line ++ " column " ++ toString c.place.column

/-- A cause, the text left where it arose, and the bytes of that text the complaint points past. -/
structure Fault where
  cause : Cause
  left : List Char
  past : Nat
deriving DecidableEq, Repr

namespace Fault

/-- A complaint about what is left, of which nothing was consumed. -/
def consumed (cause : Cause) (left : List Char) : Fault :=
  ⟨cause, left, 0⟩

/-- A complaint about the next byte of what is left, or about the end if there is none. -/
def peeked (cause : Cause) : List Char → Fault
  | [] => ⟨cause, [], 0⟩
  | c :: left => ⟨cause, c :: left, 1⟩

/-- How many bytes of `text` lie before the point complained about. -/
def offset (f : Fault) (text : List Char) : Nat :=
  byteLength text - byteLength f.left + f.past

/-- What a fault of `text` says once its place is known. -/
def locate (f : Fault) (text : List Char) : Complaint :=
  ⟨f.cause, Place.ofBytes text (f.offset text)⟩

@[simp] theorem cause_consumed (cause : Cause) (left : List Char) :
    (consumed cause left).cause = cause := rfl

@[simp] theorem cause_peeked (cause : Cause) (left : List Char) :
    (peeked cause left).cause = cause := by
  cases left <;> rfl

end Fault

end BlankLines.Json
