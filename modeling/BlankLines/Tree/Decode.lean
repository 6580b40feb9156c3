import BlankLines.Json.Decode
import BlankLines.Tree.Basic

/-!
# Tree — Decode

Trees from JSON.

A position and a span pass over fields they do not know; every other record refuses them.  Columns,
comments, blocks and the source path may be left out.  A statement is read by recursion on the
levels that may still be opened, two of which a statement in a block takes.

* `SourceTree.ofText`: the tree of a whole text.
-/

namespace BlankLines
open Json (Decoder Layout Part)

/-- A position as JSON; the column may be left out. -/
def Position.ofJson (levels : Nat) : Decoder Position := fun node =>
  let layout := Layout.part ⟨"line", Json.word, none⟩ <|
    .part ⟨"column", Json.word, some 1⟩ .done
  (Json.record levels "Position" false layout node).map
    fun (line, column, _) => ⟨line, column⟩

/-- A span as JSON. -/
def Span.ofJson (levels : Nat) : Decoder Span := fun node =>
  let position := Position.ofJson (levels - 1)
  let layout := Layout.part ⟨"start", position, none⟩ <|
    .part ⟨"end", position, none⟩ .done
  (Json.record levels "Span" false layout node).map fun (start, stop, _) => ⟨start, stop⟩

/-- A comment as JSON; the column may be left out. -/
def Comment.ofJson (levels : Nat) : Decoder Comment := fun node =>
  let layout := Layout.part ⟨"line", Json.word, none⟩ <|
    .part ⟨"column", Json.word, some 1⟩ .done
  (Json.record levels "CommentSpan" true layout node).map
    fun (line, column, _) => ⟨line, column⟩

/-- The names of declaration kinds. -/
def DeclarationKind.table : List (String × DeclarationKind) :=
  all.map fun k => (k.name, k)

/-- The names of statement kinds. -/
def StatementKind.table : List (String × StatementKind) :=
  all.map fun k => (k.name, k)

/-- A record of a kind, a span and perhaps a block. -/
def nodeOfJson {κ : Type} (levels : Nat) (name : String) (kinds : List (String × κ))
    (block : Decoder Block) : Decoder (κ × Span × Option Block × Unit) :=
  Json.record levels name true <|
    .part ⟨"kind", Json.choice (levels - 1) kinds, none⟩ <|
    .part ⟨"span", Span.ofJson (levels - 1), none⟩ <|
    .part ⟨"body", Json.nullable block, some none⟩ .done

namespace Statement

/-- A statement as JSON, its block being read by `block`. -/
def ofParts (levels : Nat) (block : Decoder Block) : Decoder Statement := fun node =>
  (nodeOfJson levels "Statement" StatementKind.table block node).map
    fun (kind, span, body, _) => ⟨kind, span, body⟩

/-- A statement as JSON. -/
def ofJson : Nat → Decoder Statement
  | 0          => ofParts 0 (Json.list 0 fun node => .error (.consumed .tooDeep node.here))
  | 1          => ofParts 1 (Json.list 0 fun node => .error (.consumed .tooDeep node.here))
  | levels + 2 => ofParts (levels + 2) (Json.list (levels + 1) (ofJson levels))

/-- A block as JSON. -/
def blockOfJson (levels : Nat) : Decoder Block :=
  Json.list levels (ofJson (levels - 1))

end Statement

/-- A declaration as JSON. -/
def Declaration.ofJson (levels : Nat) : Decoder Declaration := fun node =>
  (nodeOfJson levels "Declaration" DeclarationKind.table
    (Statement.blockOfJson (levels - 1)) node).map
    fun (kind, span, body, _) => ⟨kind, span, body⟩

namespace SourceTree

/-- A tree as JSON. -/
def ofJson (levels : Nat) : Decoder SourceTree := fun node =>
  let path : Decoder Path := fun node => (Json.text "path string" node).map Path.mk
  let declarations := Json.list (levels - 1) (Declaration.ofJson (levels - 2))
  let comments := Json.list (levels - 1) (Comment.ofJson (levels - 2))
  let layout := Layout.part ⟨"source", Json.nullable path, some none⟩ <|
    .part ⟨"declarations", declarations, none⟩ <|
    .part ⟨"comments", comments, some []⟩ .done
  (Json.record levels "SourceFile" true layout node).map
    fun (source, declarations, comments, _) => ⟨source, declarations, comments⟩

/-- The tree of a whole text. -/
def ofText (text : String) : Except Json.Complaint SourceTree :=
  Json.decodeText (ofJson Json.depthLimit) text

end SourceTree

end BlankLines
