import BlankLines.Check.Diagnostic
import BlankLines.Check.LineNumber

/-!
# Check — Statements

The rule for the statements of a block: no blank line between two that follow each other.

Whether there is one is read off the spans: a statement that starts two or more lines after the end
of the one before it leaves a gap.  The policy decides what a gap may hold.

* `StatementPolicy`: a comment in a gap excuses it, or nothing does.
* `gapPosition?`: where a pair of statements is reported, if it is.
* `checkBlock`: first a pair, then the block its first statement owns, then the next pair.
-/

namespace BlankLines

/-- What may stand between two statements. -/
inductive StatementPolicy where
  /-- A gap is fine if a comment starts in it. -/
  | commentAware
  /-- No gap is fine. -/
  | strict
deriving DecidableEq, Repr, Inhabited

namespace StatementPolicy

/-- Every policy. -/
def all : List StatementPolicy :=
  [.commentAware, .strict]

/-- The name of a policy. -/
def name : StatementPolicy → String
  | .commentAware => "comment-aware"
  | .strict       => "strict"

/-- The policy that a name means, whatever the case of its letters; no letter outside ASCII lowers
to one of these. -/
def ofName? (name : String) : Option StatementPolicy :=
  let lowered := String.ofList (name.toList.map Char.toLower)
  if lowered = "comment-aware" || lowered = "comment_aware" then some .commentAware
  else if lowered = "strict" then some .strict
  else none

theorem ofName?_name (p : StatementPolicy) : ofName? p.name = some p := by
  cases p <;> decide +kernel

end StatementPolicy

/-- The lines on which comments start. -/
structure CommentLines where
  starts : List UInt64
deriving DecidableEq, Repr

namespace CommentLines

/-- The lines on which the comments of a file start. -/
def ofComments (comments : List Comment) : CommentLines :=
  ⟨comments.map Comment.line⟩

/-- Whether a comment starts on one of the lines from `first` to `last`. -/
def startsWithin (c : CommentLines) (first last : UInt64) : Bool :=
  c.starts.any fun line => first ≤ line && line ≤ last

theorem startsWithin_iff {c : CommentLines} {first last : UInt64} :
    c.startsWithin first last = true ↔ ∃ line ∈ c.starts, first ≤ line ∧ line ≤ last := by
  simp [startsWithin]

end CommentLines

/-- Where the gap between two statements is reported, if there is one to report: on the line after
the first statement, or under the strict policy at the second. -/
def gapPosition? (policy : StatementPolicy) (comments : CommentLines) (s next : Statement) :
    Option Position :=
  if LineNumber.distance s.span.lastLine next.span.firstLine ≤ 1 then none
  else
    match policy with
    | .commentAware =>
      let first := s.span.lastLine + 1
      if comments.startsWithin first (next.span.firstLine - 1) then none
      else some { line := first }
    | .strict => some next.span.start

/-- Reports the gap between a statement and the one after it, if any. -/
def checkPair (policy : StatementPolicy) (comments : CommentLines) (s : Statement)
    (next? : Option Statement) (r : Reporter) : Reporter :=
  match next?.bind (gapPosition? policy comments s) with
  | some position => r.report .unnecessaryGap position
  | none          => r

mutual

/-- Checks the block a statement owns. -/
def checkOwned (policy : StatementPolicy) (comments : CommentLines) :
    Statement → Reporter → Reporter
  | ⟨kind, _, body⟩, r => if kind.ownsBlock then checkBody policy comments body r else r

/-- Checks a block if there is one. -/
def checkBody (policy : StatementPolicy) (comments : CommentLines) :
    Option (List Statement) → Reporter → Reporter
  | none,       r => r
  | some block, r => checkBlock policy comments block r

/-- Checks the pairs of a block and the blocks its statements own. -/
def checkBlock (policy : StatementPolicy) (comments : CommentLines) :
    List Statement → Reporter → Reporter
  | [], r => r
  | s :: rest, r =>
    checkBlock policy comments rest <|
      checkOwned policy comments s (checkPair policy comments s rest.head? r)

end

/-- Checks the blocks of a file's functions. -/
def checkStatements (policy : StatementPolicy) (comments : CommentLines) (t : SourceTree)
    (r : Reporter) : Reporter :=
  t.functionBodies.foldl (fun r block => checkBlock policy comments block r) r

@[simp] theorem checkBlock_nil (policy : StatementPolicy) (comments : CommentLines)
    (r : Reporter) : checkBlock policy comments [] r = r := by
  simp [checkBlock]

end BlankLines
