import BlankLines.Text.Blank

/-!
# Text — Lines

The lines of a source text, numbered from one.

A line ends at `\n`; a `\r` right before that `\n` belongs to the terminator and not to the line.
Any other `\r` stays in its line, also one at the very end of the text.  What follows the last
`\n` is a line only if it is not empty.

* `splitLines`: the lines of a list of characters.
* `Lines.line?_eq_none_iff`: which numbers name no line.
* `Lines.not_isBlank_of_size_lt`: a line past the end is never blank.
-/

namespace BlankLines.Text

/-- Puts `c` before the first line of what follows. -/
def consLine (c : Char) : List (List Char) → List (List Char)
  | [] => [[c]]
  | line :: rest => (c :: line) :: rest

/-- The lines of a text, without their terminators. -/
def splitLines : List Char → List (List Char)
  | [] => []
  | '\n' :: rest => [] :: splitLines rest
  | '\r' :: '\n' :: rest => [] :: splitLines rest
  | c :: rest => consLine c (splitLines rest)

@[simp] theorem splitLines_nil : splitLines [] = [] := rfl

@[simp] theorem splitLines_newline (rest : List Char) :
    splitLines ('\n' :: rest) = [] :: splitLines rest := rfl

@[simp] theorem splitLines_return_newline (rest : List Char) :
    splitLines ('\r' :: '\n' :: rest) = [] :: splitLines rest := rfl

/-- The lines of a source text, numbered from one. -/
structure Lines where
  /-- The lines in order, without their terminators. -/
  all : Array String
deriving DecidableEq, Repr

namespace Lines

/-- The lines of `text`. -/
def ofText (text : String) : Lines :=
  ⟨((splitLines text.toList).map String.ofList).toArray⟩

/-- How many lines there are. -/
def size (ls : Lines) : Nat :=
  ls.all.size

/-- Line number `n`; there is no line zero. -/
def line? (ls : Lines) (n : Nat) : Option String :=
  if n = 0 then none else ls.all[n - 1]?

/-- Whether line `n` exists and is blank. -/
def isBlank (ls : Lines) (n : Nat) : Bool :=
  (ls.line? n).any allBlank

/-- The numbers of the blank lines, in order. -/
def blanks (ls : Lines) : List Nat :=
  (List.range' 1 ls.size).filter ls.isBlank

theorem size_ofText (text : String) : (ofText text).size = (splitLines text.toList).length := by
  simp [ofText, size]

theorem line?_eq_none_iff (ls : Lines) (n : Nat) : ls.line? n = none ↔ n = 0 ∨ ls.size < n := by
  unfold line? size
  split
  · simp_all
  · simp only [Array.getElem?_eq_none_iff]
    omega

/-- A line past the end of the text is not blank. -/
theorem not_isBlank_of_size_lt {ls : Lines} {n : Nat} (h : ls.size < n) : ls.isBlank n = false := by
  simp [isBlank, (ls.line?_eq_none_iff n).2 (Or.inr h)]

/-- There is no line zero. -/
@[simp] theorem isBlank_zero (ls : Lines) : ls.isBlank 0 = false := rfl

end Lines

end BlankLines.Text
