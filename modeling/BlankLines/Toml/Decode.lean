import BlankLines.Decimal.Written
import BlankLines.Text.Quoted
import BlankLines.Toml.Document

/-!
# Toml — Decode

From the table of a document to values of other types, and what is said when that fails.

A record is a table, whose known names are met in the order of the alphabet, or an array with its
parts in order.  All parts have defaults; unknown names and further parts are passed over.

* `Reason.message`: the wording of each cause.
* `Excerpt.text`: the line a complaint is about, with the place marked.
* `decodeText`: a whole document.
-/

namespace BlankLines.Toml
open BlankLines.Text
open BlankLines.Decimal (floatText Style)

/-- What is wrong with a value. -/
inductive Reason where
  | wrongType (found wanted : String)
  | unknownVariant (name : String) (known : List String)
  | noElement
  | severalElements
  | notTextOrTable
  | notTable (found : String)
  | notEmptyTable
  | notEmptyArray
deriving DecidableEq, Repr

/-- The wording of a reason. -/
def Reason.message : Reason → String
  | .wrongType found wanted    => "invalid type: " ++ found ++ ", expected " ++ wanted
  | .unknownVariant name known =>
    "unknown variant " ++ ticked name ++ ", expected " ++ " or ".intercalate (known.map ticked)
  | .noElement                 => "wanted exactly 1 element, found 0 elements"
  | .severalElements           => "wanted exactly 1 element, more than 1 element"
  | .notTextOrTable            => "wanted string or table"
  | .notTable found            => "expected table, found " ++ found
  | .notEmptyTable             => "expected empty table"
  | .notEmptyArray             => "expected empty array"

/-- A reason and where it arose. -/
structure Fault where
  reason : Reason
  extent : Extent
deriving DecidableEq, Repr

/-- A line of a text with a stretch of it marked; the column counts characters from zero. -/
structure Excerpt where
  line : Nat
  column : Nat
  content : String
  width : Nat
deriving DecidableEq, Repr

namespace Excerpt

/-- The line on which a stretch of `text` starts; the mark ends with the line. -/
def ofExtent (text : List Char) (e : Extent) : Excerpt :=
  let before := text.take (text.length - e.here.length)
  let column := (before.reverse.takeWhile (· ≠ '\n')).length
  let content := (text.drop (before.length - column)).takeWhile (· ≠ '\n')
  { line := 1 + before.count '\n'
    column
    content := String.ofList content
    width := max 1 (min e.bytes (byteLength content - column)) }

/-- The line with its number, and the mark below it. -/
def text (x : Excerpt) : String :=
  let number := toString x.line
  let spaces (n : Nat) := String.ofList (List.replicate n ' ')
  let gutter := spaces (number.length + 1) ++ "|"
  "TOML parse error at line " ++ number ++ ", column " ++ toString (x.column + 1) ++ "\n" ++
    gutter ++ "\n" ++
    number ++ " | " ++ x.content ++ "\n" ++
    gutter ++ " " ++ spaces x.column ++ String.ofList (List.replicate x.width '^') ++ "\n"

end Excerpt

/-- Why a document is refused. -/
inductive Complaint where
  /-- It is not TOML. -/
  | malformed
  /-- A value in it is wrong. -/
  | wrong (reason : Reason) (excerpt : Excerpt)
deriving DecidableEq, Repr

/-- Words for a document that is not TOML, where those of the reader of TOML are not at hand. -/
def malformedWords : String := "malformed document\n"

/-- The wording of a complaint.  How a document is refused that is not TOML is up to the reader of
TOML: `malformed` are its words. -/
def Complaint.message (c : Complaint) (malformed : String := malformedWords) : String :=
  match c with
  | .malformed            => malformed
  | .wrong reason excerpt => excerpt.text ++ reason.message ++ "\n"

/-- Reads a value from an item. -/
abbrev Decoder (α : Type) := Item → Except Fault α

namespace Item

/-- How messages describe a value of the wrong kind. -/
def found : Item → String
  | .text _ s    => "string " ++ quoted s
  | .integer _ n => "integer " ++ ticked (toString n)
  | .float _ x   => "floating point " ++ ticked (floatText .plain x)
  | .bool _ b    => "boolean " ++ ticked (if b then "true" else "false")
  | .array _ _ _ => "sequence"
  | .moment _    => "map"
  | .table _ _ _ => "map"

/-- The kind of a value. -/
def kind : Item → String
  | .text _ _    => "string"
  | .integer _ _ => "integer"
  | .float _ _   => "float"
  | .bool _ _    => "boolean"
  | .moment _    => "datetime"
  | .array _ _ _ => "array"
  | .table _ _ _ => "table"

/-- Refuses a value: something else was wanted. -/
def mismatch {α : Type} (wanted : String) (item : Item) : Except Fault α :=
  .error ⟨.wrongType item.found wanted, item.extent⟩

mutual

/-- Whether every integer of a value fits a signed word of 64 bits. -/
def isSmall : Item → Bool
  | .integer _ n     => -0x8000000000000000 ≤ n && n ≤ 0x7FFFFFFFFFFFFFFF
  | .array _ _ items => areSmall items
  | .table _ _ es    => entriesSmall es
  | _                => true

/-- Whether every integer of a list of values fits. -/
def areSmall : List Item → Bool
  | []           => true
  | item :: rest => isSmall item && areSmall rest

/-- Whether every integer of a table fits. -/
def entriesSmall : List (KeyPart × Item) → Bool
  | []            => true
  | entry :: rest => entrySmall entry && entriesSmall rest

/-- Whether every integer of an entry fits. -/
def entrySmall : KeyPart × Item → Bool
  | (_, item) => isSmall item

end

end Item

/-- A string. -/
def text : Decoder String
  | .text _ s => .ok s
  | item      => item.mismatch "a string"

/-- A truth value. -/
def bool : Decoder Bool
  | .bool _ b => .ok b
  | item      => item.mismatch "a boolean"

/-- A list. -/
def list {α : Type} (d : Decoder α) : Decoder (List α)
  | .array _ _ items => items.mapM d
  | item             => item.mismatch "a sequence"

/-- The value that `name` stands for. -/
def lookUp {α : Type} (table : List (String × α)) (name : String) (extent : Extent) :
    Except Fault α :=
  match table.lookup name with
  | some a => .ok a
  | none   => .error ⟨.unknownVariant name (table.map Prod.fst), extent⟩

/-- Refuses a value that says more than the name it stands under. -/
def empty : Decoder Unit
  | .table _ _ []        => .ok ()
  | .table extent _ _    => .error ⟨.notEmptyTable, extent⟩
  | .array _ _ []        => .ok ()
  | .array extent _ _    => .error ⟨.notEmptyArray, extent⟩
  | item                 => .error ⟨.notTable item.kind, item.extent⟩

/-- One of the names of `table`, as a string or as the only name of a table that holds nothing
under it. -/
def choice {α : Type} (table : List (String × α)) : Decoder α
  | .text extent s => lookUp table s extent
  | .table _ _ [(part, item)] => do
    let a ← lookUp table part.name part.extent
    empty item
    return a
  | .table extent _ []       => .error ⟨.noElement, extent⟩
  | .table extent _ (_ :: _) => .error ⟨.severalElements, extent⟩
  | item                     => .error ⟨.notTextOrTable, item.extent⟩

/-- The parts of a record in order: their names, and how each is read into it. -/
abbrev Parts (σ : Type) := List (String × (σ → Decoder σ))

/-- Reads the entries of a table into a record, in the order of the alphabet. -/
def recordEntries {σ : Type} (parts : Parts σ) (s : σ) (entries : Entries) : Except Fault σ :=
  let sorted := entries.mergeSort fun a b => decide (a.1.name ≤ b.1.name)
  sorted.foldlM (fun s (part, item) =>
    match parts.lookup part.name with
    | some read => read s item
    | none      => .ok s) s

/-- Reads the items of an array into a record, part by part. -/
def recordItems {σ : Type} : Parts σ → σ → List Item → Except Fault σ
  | (_, read) :: parts, s, item :: items => do recordItems parts (← read s item) items
  | _, s, _ => .ok s

/-- A record called `name` on top of its defaults. -/
def record {σ : Type} (name : String) (parts : Parts σ) (defaults : σ) : Decoder σ
  | .table _ _ entries => recordEntries parts defaults entries
  | .array _ _ items   => recordItems parts defaults items
  | item               => item.mismatch ("struct " ++ name)

/-- Reads a whole document as a record.  A document with an integer that no signed word holds is
malformed, but that shows only when something in it is refused. -/
def decodeText {σ : Type} (parts : Parts σ) (defaults : σ) (text : String) : Except Complaint σ :=
  let cs := withoutMark text.toList
  match document cs with
  | none => .error .malformed
  | some entries =>
    (recordEntries parts defaults entries).mapError fun f =>
      if Item.entriesSmall entries then .wrong f.reason (.ofExtent cs f.extent) else .malformed

end BlankLines.Toml
