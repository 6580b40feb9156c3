import BlankLines.Json.Value
import BlankLines.Tree.Basic

/-!
# Tree — Encode

Trees as JSON.  Columns and comments are always written, a source path and a block only if there
is one.
-/

namespace BlankLines
open Json (Value)

/-- A field that is left out where there is no value. -/
def optionalField (name : String) : Option Value → List (String × Value)
  | none   => []
  | some v => [(name, v)]

/-- A position as JSON. -/
def Position.toJson (p : Position) : Value :=
  .object [("line", .number p.line.toNat), ("column", .number p.column.toNat)]

/-- A span as JSON. -/
def Span.toJson (s : Span) : Value :=
  .object [("start", s.start.toJson), ("end", s.stop.toJson)]

namespace Statement

mutual

/-- A statement as JSON. -/
def toJson : Statement → Value
  | ⟨kind, span, body⟩ =>
    .object (("kind", .text kind.name) :: ("span", span.toJson) :: bodyFields body)

/-- The field for a block. -/
def bodyFields : Option (List Statement) → List (String × Value)
  | none       => []
  | some block => [("body", .array (blockToJson block))]

/-- The items of a block. -/
def blockToJson : List Statement → List Value
  | []        => []
  | s :: rest => toJson s :: blockToJson rest

end

theorem blockToJson_eq_map (block : Block) : blockToJson block = block.map toJson := by
  induction block with
  | nil => rfl
  | cons s rest ih => simp [blockToJson, ih]

end Statement

/-- A declaration as JSON. -/
def Declaration.toJson (d : Declaration) : Value :=
  .object (("kind", .text d.kind.name) :: ("span", d.span.toJson) :: Statement.bodyFields d.body)

/-- A comment as JSON. -/
def Comment.toJson (c : Comment) : Value :=
  .object [("line", .number c.line.toNat), ("column", .number c.column.toNat)]

/-- A tree as JSON. -/
def SourceTree.toJson (t : SourceTree) : Value :=
  .object (optionalField "source" (t.source.map fun p => .text p.text) ++
    [("declarations", .array (t.declarations.map Declaration.toJson)),
      ("comments", .array (t.comments.map Comment.toJson))])

end BlankLines
