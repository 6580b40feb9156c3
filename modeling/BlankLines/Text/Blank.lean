/-!
# Text — Blank

The characters that leave a line blank: those with Unicode's `White_Space` property.  The
property has twenty-five members and is closed, so the table below is all of it.

* `isBlank_of_isWhitespace`: every white space of ASCII is blank.

-/

namespace BlankLines.Text

/-- Unicode's `White_Space`, as closed ranges of code points in increasing order. -/
def blankRanges : List (Nat × Nat) :=
  [(0x09, 0x0D), (0x20, 0x20), (0x85, 0x85), (0xA0, 0xA0), (0x1680, 0x1680), (0x2000, 0x200A),
    (0x2028, 0x2029), (0x202F, 0x202F), (0x205F, 0x205F), (0x3000, 0x3000)]

/-- Whether a character has the `White_Space` property. -/
def isBlank (c : Char) : Bool :=
  blankRanges.any fun r => r.1 ≤ c.toNat && c.toNat ≤ r.2

/-- A text is blank when all its characters are; the empty text is. -/
def allBlank (s : String) : Bool :=
  s.toList.all isBlank

theorem isBlank_of_isWhitespace {c : Char} (h : c.isWhitespace = true) : isBlank c = true := by
  simp only [Char.isWhitespace, Bool.or_eq_true, decide_eq_true_eq] at h
  rcases h with ((rfl | rfl) | rfl) | rfl <;> rfl

@[simp] theorem isBlank_newline : isBlank '\n' = true := rfl

@[simp] theorem isBlank_return : isBlank '\r' = true := rfl

@[simp] theorem allBlank_empty : allBlank "" = true := rfl

end BlankLines.Text
