/-!
# Glob — Pattern

What a glob pattern consists of, and why a text is not one.

* `Token`: a piece of a pattern.
* `Fault.message`: the wording of each cause.
* `nesting`: how deeply a pattern nests, of which there is a limit.
-/

namespace BlankLines.Glob

/-- A piece of a pattern. -/
inductive Token where
  | literal (c : Char)
  /-- Any one byte. -/
  | any
  /-- Any bytes. -/
  | star
  /-- Nothing, or any directories from the start of the path. -/
  | leading
  /-- Everything below a directory. -/
  | trailing
  /-- A slash, or any directories between two slashes. -/
  | middle
  /-- One byte in, or with `negated` outside, the ranges. -/
  | oneOf (negated : Bool) (ranges : List (Char × Char))
  /-- One of several patterns. -/
  | alternates (branches : List (List Token))
deriving Repr

/-- A glob pattern. -/
abbrev Pattern := List Token

/-- Why a text is no pattern. -/
inductive Fault where
  | unclosedClass
  | invalidRange (first last : Char)
  | unopenedAlternates
  | unclosedAlternates
  | danglingEscape
deriving DecidableEq, Repr

/-- The wording of a cause. -/
def Fault.message : Fault → String
  | .unclosedClass => "unclosed character class; missing ']'"
  | .invalidRange first last =>
    "invalid range; '" ++ String.singleton first ++ "' > '" ++ String.singleton last ++ "'"
  | .unopenedAlternates =>
    "unopened alternate group; missing '\x7b' (maybe escape '\x7d' with '[\x7d]'?)"
  | .unclosedAlternates =>
    "unclosed alternate group; missing '\x7d' (maybe escape '\x7b' with '[\x7b]'?)"
  | .danglingEscape => "dangling '\\'"

/-- A class as ranges of bytes: a character outside ASCII is spelled byte by byte, so that a range
runs from the last byte of its first character to the first byte of its last. -/
def byteRanges (ranges : List (Char × Char)) : List (UInt8 × UInt8) :=
  ranges.flatMap fun (first, last) =>
    let low := String.utf8EncodeChar first
    let high := String.utf8EncodeChar last
    let single (b : UInt8) := (b, b)
    if first = last then low.map single
    else
      low.dropLast.map single ++ [(low.getLast?.getD 0, high.head?.getD 0)] ++
        (high.drop 1).map single

/-- How deeply a sequence of parts nests, given the depth of the deepest and their number: two or
more parts take a level. -/
def sequenceDepth (deepest parts : Nat) : Nat :=
  if 2 ≤ parts then deepest + 1 else deepest

mutual

/-- How deeply a token nests and how many parts it makes in a sequence.  A class takes a level, and
another if it has several members. -/
def Token.nesting : Token → Nat × Nat
  | .literal c => (0, c.utf8Size)
  | .any       => (0, 1)
  | .star      => (1, 1)
  | .leading   => (4, 1)
  | .trailing  => (1, 2)
  | .middle    => (4, 1)
  | .oneOf _ ranges => (if (byteRanges ranges).length ≤ 1 then 1 else 2, 1)
  | .alternates branches =>
    match branchesNesting branches with
    | (_, 0)       => (0, 0)
    | (depth, parts) => (sequenceDepth depth parts + 1, 1)

/-- The deepest token of a sequence, and the parts of all. -/
def tokensNesting : List Token → Nat × Nat
  | [] => (0, 0)
  | t :: rest =>
    let (depth, parts) := t.nesting
    let (deepest, more) := tokensNesting rest
    (max depth deepest, parts + more)

/-- The deepest branch, and the number of those that are not empty. -/
def branchesNesting : List (List Token) → Nat × Nat
  | [] => (0, 0)
  | branch :: rest =>
    let (deepest, more) := branchesNesting rest
    match tokensNesting branch with
    | (_, 0)       => (deepest, more)
    | (depth, parts) => (max (sequenceDepth depth parts) deepest, more + 1)

end

/-- How deeply a pattern nests. -/
def nesting (p : Pattern) : Nat :=
  (tokensNesting p).1 + 1

/-- The deepest nesting that is compiled. -/
def nestingLimit : Nat := 250

/-- The characters of a pattern that holds nothing else. -/
def literals? : Pattern → Option (List Char)
  | [] => some []
  | .literal c :: rest => (literals? rest).map (c :: ·)
  | _ => none

/-- Whether a pattern ends in a dot and further characters of a name. -/
def endsInExtension (p : Pattern) : Bool :=
  let name := p.reverse.takeWhile fun
    | .literal c => c ≠ '.' && c ≠ '/'
    | _ => false
  match p.reverse.drop name.length with
  | .literal '.' :: _ => true
  | _ => false

/-- Whether a pattern says no more than how a path starts, ends or reads. -/
def isSimple (p : Pattern) : Bool :=
  let tail? (rest : Pattern) : Bool :=
    match literals? rest with
    | some cs => cs ≠ [] && cs ≠ ['/']
    | none    => false
  let head? (before : Pattern) : Bool := (literals? before).isSome
  match p with
  | [] => false
  | .leading :: .star :: rest => tail? rest
  | .leading :: rest => (literals? rest).any (· ≠ [])
  | .star :: rest => tail? rest
  | _ =>
    match p.getLast? with
    | some .star     => 2 ≤ p.length && head? p.dropLast
    | some .trailing => head? p.dropLast
    | _              => head? p

end BlankLines.Glob
