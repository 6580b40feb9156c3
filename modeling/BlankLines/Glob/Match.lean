import BlankLines.Glob.Pattern

/-!
# Glob — Match

Which paths a pattern matches.

Matching goes over the bytes of the path and keeps all points that can be reached, as what is left
of the path there.  All of these are ends of one list, so a set of them is a list of falling
lengths.
-/

namespace BlankLines.Glob

/-- Ends of one list, longest first. -/
abbrev Ends := List (List UInt8)

/-- Every end of a list, longest first. -/
def tails : List UInt8 → Ends
  | [] => [[]]
  | b :: rest => (b :: rest) :: tails rest

/-- The ends in either set. -/
def union : Ends → Ends → Ends
  | [], ys => ys
  | xs, [] => xs
  | x :: xs, y :: ys =>
    if y.length < x.length then x :: union xs (y :: ys)
    else if x.length < y.length then y :: union (x :: xs) ys
    else x :: union xs ys
termination_by xs ys => xs.length + ys.length

/-- Where any bytes lead. -/
def anywhere : Ends → Ends
  | [] => []
  | x :: _ => tails x

/-- Where one byte that `accepts` admits leads. -/
def oneByte (accepts : UInt8 → Bool) (ends : Ends) : Ends :=
  ends.filterMap fun
    | b :: rest => if accepts b then some rest else none
    | [] => none

/-- Where the bytes of a character lead. -/
def character (c : Char) (ends : Ends) : Ends :=
  (String.utf8EncodeChar c).foldl (fun ends b => oneByte (· = b) ends) ends

/-- Where a slash leads. -/
def slash (ends : Ends) : Ends :=
  character '/' ends

/-- Where one byte of a class leads. -/
def classByte (negated : Bool) (ranges : List (Char × Char)) (ends : Ends) : Ends :=
  let bytes := byteRanges ranges
  oneByte (fun b => (bytes.any fun (low, high) => low ≤ b && b ≤ high) != negated) ends

mutual

/-- Where a token leads. -/
def Token.run : Token → Ends → Ends
  | .literal c, ends           => character c ends
  | .any, ends                 => oneByte (fun _ => true) ends
  | .star, ends                => anywhere ends
  | .leading, ends             => union ends (slash (anywhere ends))
  | .trailing, ends            => anywhere (slash ends)
  | .middle, ends              => union (slash ends) (slash (anywhere (slash ends)))
  | .oneOf negated ranges, ends => classByte negated ranges ends
  | .alternates branches, ends => if allEmpty branches then ends else runBranches branches ends

/-- Where a sequence of tokens leads. -/
def runTokens : List Token → Ends → Ends
  | [], ends        => ends
  | t :: rest, ends => runTokens rest (t.run ends)

/-- Where any of several branches leads; empty ones are left out. -/
def runBranches : List (List Token) → Ends → Ends
  | [], _ => []
  | branch :: rest, ends =>
    if isEmpty branch then runBranches rest ends
    else union (runTokens branch ends) (runBranches rest ends)

/-- Whether a sequence of tokens says nothing. -/
def isEmpty : List Token → Bool
  | [] => true
  | .alternates branches :: rest => allEmpty branches && isEmpty rest
  | _ => false

/-- Whether no branch says anything. -/
def allEmpty : List (List Token) → Bool
  | [] => true
  | branch :: rest => isEmpty branch && allEmpty rest

end

/-- Whether a pattern matches the whole of a path.  Leading directories alone match every path. -/
def isMatch (p : Pattern) (path : String) : Bool :=
  match p with
  | [.leading] => true
  | _ => (runTokens p [path.toUTF8.toList]).any List.isEmpty

end BlankLines.Glob
