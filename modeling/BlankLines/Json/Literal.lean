import BlankLines.Json.Number

/-!
# Json — Literal

Blanks, words and strings of a JSON text.

A string is read in one of two ways.  `chars` gives its characters and refuses escapes that do not
denote any; `skipChars` only looks for its end, so that it accepts surrogate escapes without a
partner.

* `dropBlanks`: the four blanks of JSON.
* `length_escape`, `length_unit`: an escape is longer than nothing, on which the reading rests.
-/

namespace BlankLines.Json
open BlankLines.Text

/-- The blanks of JSON: space, tab, line feed and carriage return. -/
def isBlank (c : Char) : Bool :=
  c = ' ' || c = '\t' || c = '\n' || c = '\r'

/-- What is left after leading blanks. -/
def dropBlanks (cs : List Char) : List Char :=
  cs.dropWhile isBlank

/-- Expects the letters `word` and gives what follows them. -/
def expectWord (word : List Char) (cs : List Char) : Except Fault (List Char) :=
  match word, cs with
  | [], _ => .ok cs
  | _ :: _, [] => .error (.consumed .endOfValue [])
  | w :: word, c :: rest =>
    if c = w then expectWord word rest else .error (.peeked .expectedWord (c :: rest))

/-- The value of a hexadecimal digit. -/
def hexValue? (c : Char) : Option Nat :=
  if '0' ≤ c ∧ c ≤ '9' then some (c.toNat - '0'.toNat)
  else if 'a' ≤ c ∧ c ≤ 'f' then some (c.toNat - 'a'.toNat + 10)
  else if 'A' ≤ c ∧ c ≤ 'F' then some (c.toNat - 'A'.toNat + 10)
  else none

/-- The value of four hexadecimal digits. -/
def unit? (a b c d : Char) : Option Nat := do
  return 4096 * (← hexValue? a) + 256 * (← hexValue? b) + 16 * (← hexValue? c) + (← hexValue? d)

/-- Why the digits of an escape are refused: four bytes are consumed before they are judged. -/
def brokenUnit (cs : List Char) : Fault :=
  if byteLength cs < 4 then .consumed .endOfText [] else ⟨.invalidEscape, cs, 4⟩

/-- The four hexadecimal digits of an escape. -/
def unit (cs : List Char) : Except Fault (Nat × List Char) :=
  match cs with
  | a :: b :: c :: d :: rest =>
    match unit? a b c d with
    | some n => .ok (n, rest)
    | none   => .error (brokenUnit cs)
  | _ => .error (brokenUnit cs)

/-- A surrogate that comes first in its pair. -/
def isLeading (n : Nat) : Bool :=
  0xD800 ≤ n && n ≤ 0xDBFF

/-- A surrogate that comes last in its pair. -/
def isTrailing (n : Nat) : Bool :=
  0xDC00 ≤ n && n ≤ 0xDFFF

/-- The trailing surrogate that has to follow the leading surrogate `high`. -/
def surrogatePair (high : Nat) (cs : List Char) : Except Fault (Char × List Char) :=
  match cs with
  | [] => .error (.consumed .endOfText [])
  | '\\' :: [] => .error (.consumed .endOfText [])
  | '\\' :: 'u' :: rest => do
    let (low, rest) ← unit rest
    if isTrailing low then
      return (Char.ofNat (0x10000 + 0x400 * (high - 0xD800) + (low - 0xDC00)), rest)
    else throw (.consumed .loneSurrogate rest)
  | '\\' :: rest => .error (.peeked .endOfSurrogatePair rest)
  | rest => .error (.peeked .endOfSurrogatePair rest)

/-- The character that a one-letter escape stands for. -/
def shortEscape? : Char → Option Char
  | '"'  => some '"'
  | '\\' => some '\\'
  | '/'  => some '/'
  | 'b'  => some '\x08'
  | 'f'  => some '\x0c'
  | 'n'  => some '\n'
  | 'r'  => some '\r'
  | 't'  => some '\t'
  | _    => none

/-- The character that an escape stands for; `cs` is what follows the backslash. -/
def escape (cs : List Char) : Except Fault (Char × List Char) :=
  match cs with
  | [] => .error (.consumed .endOfText [])
  | 'u' :: rest => do
    let (n, rest) ← unit rest
    if isTrailing n then throw (.consumed .loneSurrogate rest)
    else if isLeading n then surrogatePair n rest
    else return (Char.ofNat n, rest)
  | c :: rest =>
    match shortEscape? c with
    | some e => .ok (e, rest)
    | none   => .error (.peeked .invalidEscape (c :: rest))

theorem length_unit {cs rest : List Char} {n : Nat} (h : unit cs = .ok (n, rest)) :
    rest.length < cs.length := by
  unfold unit at h
  split at h
  · split at h
    · obtain ⟨-, rfl⟩ := Prod.mk.inj (Except.ok.inj h)
      simp only [List.length_cons]
      omega
    · cases h
  · cases h

theorem length_surrogatePair {cs rest : List Char} {high : Nat} {c : Char}
    (h : surrogatePair high cs = .ok (c, rest)) : rest.length < cs.length := by
  unfold surrogatePair at h
  split at h
  · cases h
  · cases h
  · next tail =>
    cases hu : unit tail with
    | error f => rw [hu] at h; cases h
    | ok r =>
      have hl := length_unit hu
      simp only [hu, bind, Except.bind] at h
      split at h
      · obtain ⟨-, rfl⟩ := Prod.mk.inj (Except.ok.inj h)
        simp only [List.length_cons]
        omega
      · cases h
  · cases h
  · cases h

theorem length_escape {cs rest : List Char} {c : Char} (h : escape cs = .ok (c, rest)) :
    rest.length < cs.length := by
  unfold escape at h
  split at h
  · cases h
  · next tail =>
    cases hu : unit tail with
    | error f => rw [hu] at h; cases h
    | ok r =>
      have hl := length_unit hu
      simp only [hu, bind, Except.bind] at h
      split at h
      · cases h
      · split at h
        · have := length_surrogatePair h
          simp only [List.length_cons]
          omega
        · obtain ⟨-, rfl⟩ := Prod.mk.inj (Except.ok.inj h)
          simp only [List.length_cons]
          omega
  · split at h
    · obtain ⟨-, rfl⟩ := Prod.mk.inj (Except.ok.inj h)
      simp
    · cases h

/-- The characters of a string and what follows it; `cs` is what follows the opening quote. -/
def chars (cs : List Char) : Except Fault (List Char × List Char) :=
  match cs with
  | [] => .error (.consumed .endOfText [])
  | '"' :: rest => .ok ([], rest)
  | '\\' :: rest =>
    match h : escape rest with
    | .error f => .error f
    | .ok (c, left) =>
      have : left.length < rest.length := length_escape h
      (chars left).map fun (cs, after) => (c :: cs, after)
  | c :: rest =>
    if c < ' ' then .error (.peeked .controlCharacter (c :: rest))
    else (chars rest).map fun (cs, after) => (c :: cs, after)
termination_by cs.length
decreasing_by all_goals simp; try omega

/-- What follows a string whose characters do not matter. -/
def skipChars (cs : List Char) : Except Fault (List Char) :=
  match cs with
  | [] => .error (.consumed .endOfText [])
  | '"' :: rest => .ok rest
  | '\\' :: [] => .error (.consumed .endOfText [])
  | '\\' :: 'u' :: rest =>
    match h : unit rest with
    | .error f => .error f
    | .ok (_, left) =>
      have : left.length < rest.length := length_unit h
      skipChars left
  | '\\' :: c :: rest =>
    if (shortEscape? c).isSome then skipChars rest
    else .error (.peeked .invalidEscape (c :: rest))
  | c :: rest =>
    if c < ' ' then .error (.consumed .controlCharacter (c :: rest)) else skipChars rest
termination_by cs.length
decreasing_by all_goals simp; try omega

end BlankLines.Json
