import BlankLines.Toml.Item

/-!
# Toml — Scalar

The values of TOML that have no parts: strings, numbers, truth values, dates and times.

Every reader takes what is left of the text and gives a value with what is left after it, or
nothing if the text is malformed there.
-/

namespace BlankLines.Toml
open BlankLines.Text

/-- Whether a character may stand in a string or comment as it is. -/
def isPlain (c : Char) : Bool :=
  c = '\t' || 0x20 ≤ c.toNat && c.toNat ≠ 0x7F

/-- The value of a digit, whatever the base. -/
def digitValue (c : Char) : Nat :=
  if c.isDigit then c.toNat - '0'.toNat else c.toLower.toNat - 'a'.toNat + 10

/-- Whether a character is a hexadecimal digit. -/
def isHex (c : Char) : Bool :=
  c.isDigit || 'a' ≤ c.toLower && c.toLower ≤ 'f'

/-- The number that digits of a base denote. -/
def numberOf (base : Nat) (digits : List Char) : Nat :=
  digits.foldl (fun n d => base * n + digitValue d) 0

/-- The character whose number the next `count` hexadecimal digits give. -/
def numbered (count : Nat) (cs : List Char) : Option (Char × List Char) :=
  let digits := cs.take count
  let n := numberOf 16 digits
  if digits.length = count && digits.all isHex && (n < 0xD800 || 0xDFFF < n && n < 0x110000) then
    some (Char.ofNat n, cs.drop count)
  else none

/-- The character an escape stands for; `c` is what follows the backslash. -/
def escape (c : Char) (rest : List Char) : Option (Char × List Char) :=
  match c with
  | 'b'  => some ('\x08', rest)
  | 't'  => some ('\t', rest)
  | 'n'  => some ('\n', rest)
  | 'f'  => some ('\x0c', rest)
  | 'r'  => some ('\r', rest)
  | 'e'  => some ('\x1b', rest)
  | '"'  => some ('"', rest)
  | '\\' => some ('\\', rest)
  | 'x'  => numbered 2 rest
  | 'u'  => numbered 4 rest
  | 'U'  => numbered 8 rest
  | _    => none

theorem length_numbered {count : Nat} {cs rest : List Char} {c : Char}
    (h : numbered count cs = some (c, rest)) : rest.length ≤ cs.length := by
  simp only [numbered] at h
  split at h
  · obtain ⟨-, rfl⟩ := Prod.mk.inj (Option.some.inj h)
    simp
  · cases h

theorem length_escape {c e : Char} {cs rest : List Char} (h : escape c cs = some (e, rest)) :
    rest.length ≤ cs.length := by
  unfold escape at h
  split at h
  all_goals first
    | exact length_numbered h
    | (obtain ⟨-, rfl⟩ := Prod.mk.inj (Option.some.inj h); exact Nat.le_refl _)
    | cases h

/-- Puts a character before those that were read. -/
def cons (c : Char) (r : List Char × List Char) : List Char × List Char :=
  (c :: r.1, r.2)

/-- The characters of a string in double quotes, after the opening one. -/
def basic (cs : List Char) : Option (List Char × List Char) :=
  match cs with
  | [] => none
  | '"' :: rest => some ([], rest)
  | '\\' :: [] => none
  | '\\' :: c :: rest =>
    match h : escape c rest with
    | none => none
    | some (e, left) =>
      have : left.length ≤ rest.length := length_escape h
      (basic left).map (cons e)
  | c :: rest => if isPlain c then (basic rest).map (cons c) else none
termination_by cs.length
decreasing_by all_goals simp; try omega

/-- The characters of a string in single quotes, after the opening one. -/
def literal : List Char → Option (List Char × List Char)
  | [] => none
  | c :: rest =>
    if c = '\x27' then some ([], rest)
    else if isPlain c then (literal rest).map (cons c)
    else none

/-- Up to two quotes that still belong to a string whose three closing ones have been met. -/
def lateQuotes (quote : Char) : List Char → List Char × List Char
  | a :: b :: rest =>
    if a = quote then if b = quote then ([a, b], rest) else ([a], b :: rest) else ([], a :: b :: rest)
  | [a] => if a = quote then ([a], []) else ([], [a])
  | [] => ([], [])

/-- What is left after the blanks and line breaks that an escaped line break swallows. -/
def joinLines : List Char → List Char
  | ' ' :: rest         => joinLines rest
  | '\t' :: rest        => joinLines rest
  | '\n' :: rest        => joinLines rest
  | '\r' :: '\n' :: rest => joinLines rest
  | rest                => rest

/-- What is left after an escaped line break: blanks may come before it. -/
def escapedBreak? (cs : List Char) : Option (List Char) :=
  match cs.dropWhile fun c => c = ' ' || c = '\t' with
  | '\n' :: rest         => some (joinLines rest)
  | '\r' :: '\n' :: rest => some (joinLines rest)
  | _ => none

theorem length_joinLines (cs : List Char) : (joinLines cs).length ≤ cs.length := by
  fun_induction joinLines cs with
  | case1 rest ih => simp; omega
  | case2 rest ih => simp; omega
  | case3 rest ih => simp; omega
  | case4 rest ih => simp; omega
  | case5 => exact Nat.le_refl _

theorem length_escapedBreak? {cs rest : List Char} (h : escapedBreak? cs = some rest) :
    rest.length < cs.length := by
  have hd := (List.dropWhile_sublist (l := cs) fun c => c = ' ' || c = '\t').length_le
  unfold escapedBreak? at h
  split at h
  · next tail ht =>
    obtain rfl := Option.some.inj h
    have := length_joinLines tail
    rw [ht] at hd
    simp at hd
    omega
  · next tail ht =>
    obtain rfl := Option.some.inj h
    have := length_joinLines tail
    rw [ht] at hd
    simp at hd
    omega
  · cases h

/-- The characters of a string in three double quotes, after the opening ones. -/
def longBasic (cs : List Char) : Option (List Char × List Char) :=
  match cs with
  | [] => none
  | '"' :: '"' :: '"' :: rest => some (lateQuotes '"' rest)
  | '\\' :: rest =>
    match hb : escapedBreak? rest with
    | some left =>
      have := length_escapedBreak? hb
      longBasic left
    | none =>
      match rest with
      | [] => none
      | c :: more =>
        match h : escape c more with
        | none => none
        | some (e, left) =>
          have : left.length ≤ more.length := length_escape h
          (longBasic left).map (cons e)
  | '\r' :: '\n' :: rest => (longBasic rest).map fun r => cons '\r' (cons '\n' r)
  | c :: rest => if isPlain c || c = '\n' then (longBasic rest).map (cons c) else none
termination_by cs.length
decreasing_by all_goals simp_all; try omega

/-- The characters of a string in three single quotes, after the opening ones. -/
def longLiteral : List Char → Option (List Char × List Char)
  | [] => none
  | '\x27' :: '\x27' :: '\x27' :: rest => some (lateQuotes '\x27' rest)
  | '\r' :: '\n' :: rest => (longLiteral rest).map fun r => cons '\r' (cons '\n' r)
  | c :: rest => if isPlain c || c = '\n' then (longLiteral rest).map (cons c) else none

/-- What is left after a line break right behind opening quotes. -/
def dropBreak : List Char → List Char
  | '\n' :: rest         => rest
  | '\r' :: '\n' :: rest => rest
  | rest                 => rest

/-- The characters of the string on one line that `cs` starts with. -/
def shortText (cs : List Char) : Option (List Char × List Char) :=
  match cs with
  | '"' :: rest    => basic rest
  | '\x27' :: rest => literal rest
  | _ => none

/-- The characters of the string that `cs` starts with. -/
def textChars (cs : List Char) : Option (List Char × List Char) :=
  match cs with
  | '"' :: '"' :: '"' :: rest          => longBasic (dropBreak rest)
  | '\x27' :: '\x27' :: '\x27' :: rest => longLiteral (dropBreak rest)
  | _ => shortText cs

/-- Further digits, between which single underscores may stand. -/
def moreDigits (isDigit : Char → Bool) : List Char → Option (List Char × List Char)
  | '_' :: d :: rest => if isDigit d then (moreDigits isDigit rest).map (cons d) else none
  | ['_'] => none
  | c :: rest => if isDigit c then (moreDigits isDigit rest).map (cons c) else some ([], c :: rest)
  | [] => some ([], [])

/-- One digit or more. -/
def digits (isDigit : Char → Bool) : List Char → Option (List Char × List Char)
  | [] => none
  | c :: rest => if isDigit c then (moreDigits isDigit rest).map (cons c) else none

/-- Digits of which the first is zero only if it is alone. -/
def wholeDigits (cs : List Char) : Option (List Char × List Char) := do
  let (ds, rest) ← digits Char.isDigit cs
  if ds.length ≠ 1 && ds.head? = some '0' then none else some (ds, rest)

/-- An optional sign: whether it is a minus, and whether there is one. -/
def sign : List Char → Bool × Bool × List Char
  | '-' :: rest => (true, true, rest)
  | '+' :: rest => (false, true, rest)
  | rest        => (false, false, rest)

/-- The digits after a point, none if there is no point. -/
def fraction : List Char → Option (List Char × List Char)
  | '.' :: rest => digits Char.isDigit rest
  | rest        => some ([], rest)

/-- A signed exponent, if there is one. -/
def exponent (cs : List Char) : Option (Option Int × List Char) :=
  let signed (rest : List Char) : Option (Option Int × List Char) := do
    let (minus, _, rest) := sign rest
    let (ds, rest) ← digits Char.isDigit rest
    let n : Int := numberOf 10 ds
    return (some (if minus then -n else n), rest)
  match cs with
  | 'e' :: rest => signed rest
  | 'E' :: rest => signed rest
  | rest => some (none, rest)

/-- The float `digits · 10^e`; nothing if it is too large for one.  Numbers far outside the range of
floats are told by the place of their first digit. -/
def floatOf? (digits : List Char) (e : Int) : Option Float :=
  let n := numberOf 10 digits
  let size := e + (Nat.toDigits 10 n).length
  if n = 0 || size < -400 then some 0
  else if 400 < size then none
  else
    let x := Float.ofScientific n (e < 0) e.natAbs
    if x.isInf then none else some x

/-- An integer that a word of 128 bits holds. -/
def fits (n : Int) : Bool :=
  -0x80000000000000000000000000000000 ≤ n && n ≤ 0xFFFFFFFFFFFFFFFFFFFFFFFFFFFFFFFF

/-- A number without a point whose base is given by its first characters. -/
def based (base : Nat) (isDigit : Char → Bool) (cs : List Char) : Option (Int × List Char) := do
  let (ds, rest) ← digits isDigit cs
  let n : Int := numberOf base ds
  if fits n then some (n, rest) else none

/-- A number in decimal digits, after its sign. -/
def decimal (minus : Bool) (cs : List Char) : Option ((Extent → Item) × List Char) := do
  let (whole, rest) ← wholeDigits cs
  let (part, rest) ← fraction rest
  let (e, rest) ← exponent rest
  if part.isEmpty && e.isNone then
    let n : Int := numberOf 10 whole
    let n := if minus then -n else n
    if fits n then return (fun e => .integer e n, rest) else none
  else
    let x ← floatOf? (whole ++ part) (e.getD 0 - part.length)
    return (fun e => .float e (if minus then -x else x), rest)

/-- The number that `cs` starts with. -/
def number (cs : List Char) : Option ((Extent → Item) × List Char) :=
  let (minus, isSigned, unsigned) := sign cs
  let integer (r : Int × List Char) : (Extent → Item) × List Char :=
    (fun e => .integer e r.1, r.2)
  match unsigned with
  | 'i' :: 'n' :: 'f' :: rest =>
    some (fun e => .float e (if minus then -(1.0 / 0.0) else 1.0 / 0.0), rest)
  | 'n' :: 'a' :: 'n' :: rest => some (fun e => .float e (0.0 / 0.0), rest)
  | '0' :: 'x' :: rest => if isSigned then none else (based 16 isHex rest).map integer
  | '0' :: 'o' :: rest =>
    if isSigned then none else (based 8 (fun c => '0' ≤ c && c ≤ '7') rest).map integer
  | '0' :: 'b' :: rest =>
    if isSigned then none else (based 2 (fun c => c = '0' || c = '1') rest).map integer
  | _ => decimal minus unsigned

/-- Exactly `count` digits. -/
def fixedDigits (count : Nat) (cs : List Char) : Option (Nat × List Char) :=
  let ds := cs.take count
  if ds.length = count && ds.all Char.isDigit then some (numberOf 10 ds, cs.drop count) else none

/-- What is left after the character `c`. -/
def expect (c : Char) : List Char → Option (List Char)
  | d :: rest => if d = c then some rest else none
  | [] => none

/-- The days of a month. -/
def daysIn (year month : Nat) : Nat :=
  if month = 2 then
    if year % 4 = 0 && (year % 100 ≠ 0 || year % 400 = 0) then 29 else 28
  else if month = 4 || month = 6 || month = 9 || month = 11 then 30
  else 31

/-- A date of the calendar. -/
def date (cs : List Char) : Option (List Char) := do
  let (year, cs) ← fixedDigits 4 cs
  let (month, cs) ← fixedDigits 2 (← expect '-' cs)
  let (day, cs) ← fixedDigits 2 (← expect '-' cs)
  if 1 ≤ month && month ≤ 12 && 1 ≤ day && day ≤ daysIn year month then some cs else none

/-- Parts of a second. -/
def secondFraction (cs : List Char) : Option (List Char) :=
  match cs with
  | '.' :: rest =>
    if (rest.takeWhile Char.isDigit).isEmpty then none else some (rest.dropWhile Char.isDigit)
  | _ => some cs

/-- A time of the day; the seconds may be left out. -/
def time (cs : List Char) : Option (List Char) := do
  let (hour, cs) ← fixedDigits 2 cs
  let (minute, cs) ← fixedDigits 2 (← expect ':' cs)
  if hour ≤ 23 && minute ≤ 59 then
    match cs with
    | ':' :: rest =>
      let (second, rest) ← fixedDigits 2 rest
      if second ≤ 60 then secondFraction rest else none
    | _ => some cs
  else none

/-- How far a time is from universal time, if it says so. -/
def offset (cs : List Char) : Option (List Char) :=
  let hours (rest : List Char) : Option (List Char) := do
    let (hour, rest) ← fixedDigits 2 rest
    let (minute, rest) ← fixedDigits 2 (← expect ':' rest)
    if hour ≤ 23 && minute ≤ 59 then some rest else none
  match cs with
  | 'Z' :: rest => some rest
  | 'z' :: rest => some rest
  | '+' :: rest => hours rest
  | '-' :: rest => hours rest
  | _ => some cs

/-- A date, a time, or both. -/
def moment (cs : List Char) : Option (List Char) :=
  match cs with
  | _ :: _ :: ':' :: _ => time cs
  | _ => do
    let rest ← date cs
    match rest with
    | 'T' :: more => offset (← time more)
    | 't' :: more => offset (← time more)
    | ' ' :: d :: more => if d.isDigit then offset (← time (d :: more)) else some rest
    | _ => some rest

/-- Whether `cs` starts like a date or a time. -/
def startsMoment (cs : List Char) : Bool :=
  match cs with
  | a :: b :: c :: rest =>
    a.isDigit && b.isDigit && (c = ':' ||
      match rest with
      | d :: e :: _ => c.isDigit && d.isDigit && e = '-'
      | _ => false)
  | _ => false

/-- The value without parts that `cs` starts with. -/
def scalar (cs : List Char) : Option (Item × List Char) :=
  let at? (make : Extent → Item) (rest : List Char) : Option (Item × List Char) :=
    some (make ⟨cs, rest⟩, rest)
  match cs with
  | '"' :: _ => do
    let (s, rest) ← textChars cs
    at? (.text · (String.ofList s)) rest
  | '\x27' :: _ => do
    let (s, rest) ← textChars cs
    at? (.text · (String.ofList s)) rest
  | 't' :: 'r' :: 'u' :: 'e' :: rest => at? (.bool · true) rest
  | 'f' :: 'a' :: 'l' :: 's' :: 'e' :: rest => at? (.bool · false) rest
  | _ =>
    if startsMoment cs then do
      let rest ← moment cs
      at? .moment rest
    else do
      let (make, rest) ← number cs
      at? make rest

end BlankLines.Toml
