import BlankLines.Path

/-!
# Tree — Basic

The tree of a source file as a parser hands it over: as much of it as the placing of blank lines
needs.  Lines and columns are 64-bit words and count from one; nothing in the types says that spans
are nested or in order.

* `Statement.induct`: statements by induction on the statements in their bodies.
* `Statement.owned?`: the block a statement owns.
* `SourceTree.functionBodies`: the blocks that the analysis starts from.
-/

namespace BlankLines

/-- A line and a column. -/
structure Position where
  line : UInt64
  column : UInt64 := 1
deriving DecidableEq, Repr, Inhabited

/-- The positions of a first and a last character. -/
structure Span where
  start : Position
  stop : Position
deriving DecidableEq, Repr, Inhabited

namespace Span

/-- Whole lines, from the first column on. -/
def lines (first last : UInt64) : Span :=
  ⟨{ line := first }, { line := last }⟩

/-- The line a span starts on. -/
def firstLine (s : Span) : UInt64 :=
  s.start.line

/-- The line a span ends on. -/
def lastLine (s : Span) : UInt64 :=
  s.stop.line

end Span

/-- The kinds of top-level declarations. -/
inductive DeclarationKind where
  | function
  | type
  | var
  | const
  | imports
deriving DecidableEq, Repr

namespace DeclarationKind

/-- Every kind. -/
def all : List DeclarationKind :=
  [.function, .type, .var, .const, .imports]

/-- The name of a kind. -/
def name : DeclarationKind → String
  | .function => "function"
  | .type     => "type"
  | .var      => "var"
  | .const    => "const"
  | .imports  => "import"

end DeclarationKind

/-- The kinds of statements. -/
inductive StatementKind where
  | branch
  | loop
  | range
  | switch
  | typeSwitch
  | select
  | block
  | clause
  | simple
deriving DecidableEq, Repr

namespace StatementKind

/-- Every kind. -/
def all : List StatementKind :=
  [.branch, .loop, .range, .switch, .typeSwitch, .select, .block, .clause, .simple]

/-- The name of a kind. -/
def name : StatementKind → String
  | .branch     => "if"
  | .loop       => "for"
  | .range      => "range"
  | .switch     => "switch"
  | .typeSwitch => "type_switch"
  | .select     => "select"
  | .block      => "block"
  | .clause     => "clause"
  | .simple     => "simple"

/-- Whether a statement of this kind owns the block it holds. -/
def ownsBlock : StatementKind → Bool
  | .clause | .simple => false
  | _ => true

end StatementKind

/-- A statement, with the block it holds if there is one. -/
structure Statement where
  kind : StatementKind
  span : Span
  body : Option (List Statement) := none
deriving Repr

/-- Statements in order. -/
abbrev Block := List Statement

namespace Statement

mutual

/-- Two statements are equal or not. -/
def decEq : (a b : Statement) → Decidable (a = b)
  | ⟨k, s, body⟩, ⟨k', s', body'⟩ =>
    have := decEqBody body body'
    decidable_of_iff (k = k' ∧ s = s' ∧ body = body') (by simp)

/-- Two optional blocks are equal or not. -/
def decEqBody : (a b : Option (List Statement)) → Decidable (a = b)
  | none,   none   => isTrue rfl
  | none,   some _ => isFalse (by simp)
  | some _, none   => isFalse (by simp)
  | some a, some b =>
    have := decEqBlock a b
    decidable_of_iff (a = b) (by simp)

/-- Two blocks are equal or not. -/
def decEqBlock : (a b : List Statement) → Decidable (a = b)
  | [],     []     => isTrue rfl
  | [],     _ :: _ => isFalse (by simp)
  | _ :: _, []     => isFalse (by simp)
  | a :: as, b :: bs =>
    have := decEq a b
    have := decEqBlock as bs
    decidable_of_iff (a = b ∧ as = bs) (by simp)

end

instance : DecidableEq Statement := decEq

instance : Inhabited Statement := ⟨{ kind := .simple, span := default }⟩

mutual

/-- What passes to a statement from all in its body holds of every statement. -/
theorem induct {P : Statement → Prop}
    (h : ∀ s, (∀ block, s.body = some block → ∀ t ∈ block, P t) → P s) : ∀ s, P s
  | ⟨kind, span, body⟩ => h ⟨kind, span, body⟩ (induct_body h body)

theorem induct_body {P : Statement → Prop}
    (h : ∀ s, (∀ block, s.body = some block → ∀ t ∈ block, P t) → P s) :
    ∀ body : Option (List Statement), ∀ block, body = some block → ∀ s ∈ block, P s
  | some block, _, rfl => induct_block h block

theorem induct_block {P : Statement → Prop}
    (h : ∀ s, (∀ block, s.body = some block → ∀ t ∈ block, P t) → P s) :
    ∀ block : List Statement, ∀ s ∈ block, P s
  | s :: rest, t, ht => by
      rcases List.mem_cons.mp ht with he | ht
      · rw [he]
        exact induct h s
      · exact induct_block h rest t ht

end

/-- The block a statement owns. -/
def owned? (s : Statement) : Option Block :=
  if s.kind.ownsBlock then s.body else none

/-- `count` blocks with the span of `s`, each holding only the next, around `s`. -/
def wrapped (s : Statement) : Nat → Statement
  | 0 => s
  | count + 1 => ⟨.block, s.span, some [wrapped s count]⟩

end Statement

/-- A top-level declaration, with the block it holds if there is one. -/
structure Declaration where
  kind : DeclarationKind
  span : Span
  body : Option Block := none
deriving DecidableEq, Repr

/-- The block of a function. -/
def Declaration.functionBody? (d : Declaration) : Option Block :=
  match d.kind with
  | .function => d.body
  | _ => none

/-- Where a comment starts. -/
structure Comment where
  line : UInt64
  column : UInt64 := 1
deriving DecidableEq, Repr, Inhabited

/-- A source file: where its text is, its declarations in order, and its comments. -/
structure SourceTree where
  source : Option Path := none
  declarations : List Declaration := []
  comments : List Comment := []
deriving DecidableEq, Repr, Inhabited

namespace SourceTree

/-- The blocks of the functions, in order. -/
def functionBodies (t : SourceTree) : List Block :=
  t.declarations.filterMap Declaration.functionBody?

/-- Where the source text is: an absolute path stands for itself, any other is seen from the
directory that holds the tree. -/
def sourcePath? (t : SourceTree) (tree : Path) : Option Path :=
  t.source.map fun source =>
    if source.isAbsolute then source else (tree.parent?.getD ⟨"."⟩).join source

end SourceTree

end BlankLines
