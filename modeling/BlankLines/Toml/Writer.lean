/-!
# Toml — Writer

How strings, lists and truth values are written in TOML.

A string takes the plainest form that can hold it: one line of double quotes without escapes, one
line of single quotes, the same two over several lines, and only then double quotes with escapes.
-/

namespace BlankLines.Toml

/-- The four forms of a string. -/
inductive Quotes where
  | basic
  | literal
  | longBasic
  | longLiteral
deriving DecidableEq, Repr

/-- The length of the longest run of `q`, given that of the run just before. -/
def longestRun (q : Char) (run : Nat) : List Char → Nat
  | [] => run
  | c :: rest => if c = q then longestRun q (run + 1) rest else max run (longestRun q 0 rest)

/-- Whether a character cannot stand in a string as it is; a tab and a line break can. -/
def isControl (c : Char) : Bool :=
  (c.toNat < 0x20 && c ≠ '\t' && c ≠ '\n') || c.toNat = 0x7F

/-- The form that a string takes. -/
def quotesFor (s : List Char) : Quotes :=
  let controls := s.any isControl
  let backslash := s.contains '\\'
  let newline := s.contains '\n'
  let doubles := longestRun '"' 0 s
  let singles := longestRun '\x27' 0 s
  if !controls && !backslash && doubles = 0 && !newline then .basic
  else if !controls && singles = 0 && !newline then .literal
  else if !controls && !backslash && doubles ≤ 2 then .longBasic
  else if !controls && singles ≤ 2 then .longLiteral
  else if newline then .longBasic
  else .basic

/-- A hexadecimal digit in upper case. -/
def upperDigit (n : Nat) : Char :=
  (Nat.digitChar n).toUpper

/-- A character between double quotes, where `long` lets a line break stand. -/
def escaped (long : Bool) (c : Char) : List Char :=
  match c with
  | '\x08' => ['\\', 'b']
  | '\t'   => ['\\', 't']
  | '\n'   => if long then ['\n'] else ['\\', 'n']
  | '\x0c' => ['\\', 'f']
  | '\r'   => ['\\', 'r']
  | '\\'   => ['\\', '\\']
  | c      =>
    if isControl c then
      ['\\', 'u', '0', '0', upperDigit (c.toNat / 16), upperDigit (c.toNat % 16)]
    else [c]

/-- The characters between double quotes: of quotes in a row `allowed` stand as they are before one
is escaped; `run` have just stood so. -/
def basicBody (long : Bool) (allowed run : Nat) : List Char → List Char
  | [] => []
  | c :: rest =>
    if c = '"' then
      if allowed ≤ run then '\\' :: '"' :: basicBody long allowed 0 rest
      else '"' :: basicBody long allowed (run + 1) rest
    else escaped long c ++ basicBody long allowed 0 rest

/-- A string in a form; the long forms start on a new line if they hold a line break. -/
def writeAs (form : Quotes) (s : List Char) : List Char :=
  let start := if s.contains '\n' then ['\n'] else []
  let quotes (q : Char) := List.replicate 3 q
  match form with
  | .basic       => '"' :: basicBody false 0 0 s ++ ['"']
  | .literal     => '\x27' :: s ++ ['\x27']
  | .longBasic   => quotes '"' ++ start ++ basicBody true 2 0 s ++ quotes '"'
  | .longLiteral => quotes '\x27' ++ start ++ s ++ quotes '\x27'

/-- A string in the form it takes. -/
def writeText (s : String) : List Char :=
  writeAs (quotesFor s.toList) s.toList

/-- A truth value. -/
def writeBool : Bool → List Char
  | true  => ['t', 'r', 'u', 'e']
  | false => ['f', 'a', 'l', 's', 'e']

/-- A list of strings: on one line if there is at most one, else one a line. -/
def writeList : List String → List Char
  | []  => ['[', ']']
  | [s] => '[' :: writeText s ++ [']']
  | all =>
    ['[', '\n'] ++ all.flatMap (fun s => [' ', ' ', ' ', ' '] ++ writeText s ++ [',', '\n']) ++ [']']

/-- A name, its value, and the end of the line. -/
def writePair (name : String) (value : List Char) : List Char :=
  name.toList ++ [' ', '=', ' '] ++ value ++ ['\n']

/-- A header on a line of its own. -/
def writeHeader (name : String) : List Char :=
  '[' :: name.toList ++ [']', '\n']

end BlankLines.Toml
