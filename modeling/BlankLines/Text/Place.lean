/-!
# Text — Place

Where a byte offset lies in a text: the line it is on, and how many bytes of that line precede it.

* `Place.ofBytes_zero`: offset zero is on line one, column zero.
* `byteLength_append`: lengths in bytes add up.
-/

namespace BlankLines.Text

/-- The length of a text in bytes. -/
def byteLength : List Char → Nat
  | [] => 0
  | c :: rest => c.utf8Size + byteLength rest

@[simp] theorem byteLength_nil : byteLength [] = 0 := rfl

@[simp] theorem byteLength_cons (c : Char) (rest : List Char) :
    byteLength (c :: rest) = c.utf8Size + byteLength rest := rfl

@[simp] theorem byteLength_append (s t : List Char) :
    byteLength (s ++ t) = byteLength s + byteLength t := by
  induction s with
  | nil => simp
  | cons c s ih => simp [ih, Nat.add_assoc]

/-- A place in a text: lines count from one, columns are bytes since the line's start. -/
structure Place where
  line : Nat
  column : Nat
deriving DecidableEq, Repr

namespace Place

/-- Moves `k` bytes on from `p` through `text`; an offset may fall inside a character. -/
def advance (p : Place) : List Char → Nat → Place
  | [], _ => p
  | c :: rest, k =>
    if k = 0 then p
    else if c = '\n' then advance ⟨p.line + 1, 0⟩ rest (k - 1)
    else if k ≤ c.utf8Size then ⟨p.line, p.column + k⟩
    else advance ⟨p.line, p.column + c.utf8Size⟩ rest (k - c.utf8Size)

/-- The place `k` bytes into `text`. -/
def ofBytes (text : List Char) (k : Nat) : Place :=
  advance ⟨1, 0⟩ text k

@[simp] theorem advance_zero (p : Place) (text : List Char) : p.advance text 0 = p := by
  cases text <;> simp [advance]

@[simp] theorem ofBytes_zero (text : List Char) : ofBytes text 0 = ⟨1, 0⟩ :=
  advance_zero _ _

end Place

end BlankLines.Text
