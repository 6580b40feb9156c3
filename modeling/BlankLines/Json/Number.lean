import BlankLines.Decimal.Written
import BlankLines.Json.Fault

/-!
# Json — Number

The numbers of a JSON text.  A numeral is split into its digits first and given a value afterwards.

* A numeral without fraction and exponent is an integer when it fits 64 bits: an unsigned word, or
  below zero a signed one.
* Every other numeral is a float: as many leading digits as fit an unsigned word, scaled by a power
  of ten.  `-0` is a float too, to keep its sign.
-/

namespace BlankLines.Json
open BlankLines.Decimal
open BlankLines.Text (ticked)

/-- The value of a numeral. -/
inductive Number where
  | natural (n : UInt64)
  | negative (n : Int)
  | float (x : Float)
deriving Repr

/-- How messages describe a number. -/
def Number.describe : Number → String
  | .natural n  => "integer " ++ ticked (toString n.toNat)
  | .negative n => "integer " ++ ticked (toString n)
  | .float x    => "floating point " ++ ticked (floatText .report x)

/-- The value of a decimal digit. -/
def digitValue (c : Char) : Nat :=
  c.toNat - '0'.toNat

/-- Appends digits to `n` as long as the result stays within `limit`; the digits not taken are
returned. -/
def absorb (limit n : Nat) : List Char → Nat × List Char
  | [] => (n, [])
  | d :: rest =>
    if 10 * n + digitValue d ≤ limit then absorb limit (10 * n + digitValue d) rest
    else (n, d :: rest)

/-- A numeral's parts: sign, whole digits, fraction digits, and the exponent's sign and digits. -/
structure Numeral where
  minus : Bool
  whole : List Char
  fraction : List Char
  exponent : Option (Bool × List Char)
deriving DecidableEq, Repr

namespace Numeral

/-- The digits that `cs` starts with, of which there must be one. -/
def digits (cs : List Char) : Except Fault (List Char × List Char) :=
  if (cs.takeWhile Char.isDigit).isEmpty then
    .error (.peeked (if cs.isEmpty then .endOfValue else .invalidNumber) cs)
  else .ok (cs.takeWhile Char.isDigit, cs.dropWhile Char.isDigit)

/-- The whole digits: a leading zero stands alone. -/
def wholeDigits (cs : List Char) : Except Fault (List Char × List Char) :=
  match cs with
  | '0' :: rest =>
    if (rest.takeWhile Char.isDigit).isEmpty then .ok (['0'], rest)
    else .error (.peeked .invalidNumber rest)
  | _ => digits cs

/-- The digits after a point, none if there is no point. -/
def fractionDigits (cs : List Char) : Except Fault (List Char × List Char) :=
  match cs with
  | '.' :: rest => digits rest
  | _ => .ok ([], cs)

/-- The exponent, if there is one. -/
def exponentPart (cs : List Char) : Except Fault (Option (Bool × List Char) × List Char) :=
  let signed (rest : List Char) : Except Fault (Option (Bool × List Char) × List Char) :=
    match rest with
    | '+' :: rest => (digits rest).map fun (ds, after) => (some (false, ds), after)
    | '-' :: rest => (digits rest).map fun (ds, after) => (some (true, ds), after)
    | _           => (digits rest).map fun (ds, after) => (some (false, ds), after)
  match cs with
  | 'e' :: rest => signed rest
  | 'E' :: rest => signed rest
  | _ => .ok (none, cs)

/-- Reads a numeral that starts with a digit. -/
def readUnsigned (minus : Bool) (cs : List Char) : Except Fault (Numeral × List Char) := do
  let (whole, cs) ← wholeDigits cs
  let (fraction, cs) ← fractionDigits cs
  let (exponent, cs) ← exponentPart cs
  return (⟨minus, whole, fraction, exponent⟩, cs)

/-- Reads the numeral that `cs` starts with. -/
def read (cs : List Char) : Except Fault (Numeral × List Char) :=
  match cs with
  | '-' :: rest => readUnsigned true rest
  | _ => readUnsigned false cs

/-- The largest significand that is kept exactly. -/
def wordLimit : Nat := 0xFFFFFFFFFFFFFFFF

/-- The largest exponent that is told apart from an endless one. -/
def exponentLimit : Nat := 0x7FFFFFFF

/-- A power of ten as a float. -/
def tenTo (k : Nat) : Float :=
  Float.ofScientific 1 false k

/-- Divides by `10^k`, at most `10^308` at a time. -/
def scaleDown (x : Float) (k : Nat) : Float :=
  if k ≤ 308 then x / tenTo k
  else if x == 0 then x
  else scaleDown (x / tenTo 308) (k - 308)
termination_by k

/-- Multiplies by `10^e`; nothing if the result is not finite. -/
def scale (x : Float) (e : Int) : Option Float :=
  if e < 0 then some (scaleDown x e.natAbs)
  else if x == 0 then some x
  else if e ≤ 308 then
    let y := x * tenTo e.natAbs
    if y.isInf then none else some y
  else none

/-- A number with the sign in front. -/
def signed (minus : Bool) (x : Float) : Number :=
  .float (if minus then -x else x)

/-- An integer of magnitude `n`, a float where no word holds it. -/
def integer (minus : Bool) (n : Nat) : Number :=
  if !minus then .natural (UInt64.ofNat n)
  else if 0 < n && n ≤ 0x8000000000000000 then .negative (-(n : Int))
  else signed true (UInt64.ofNat n).toFloat

/-- The value of a numeral that is followed by `after`. -/
def value (n : Numeral) (after : List Char) : Except Fault Number :=
  let (whole, dropped) := absorb wordLimit 0 n.whole
  if dropped.isEmpty && n.fraction.isEmpty && n.exponent.isNone then .ok (integer n.minus whole)
  else
    let (significand, unread) := absorb wordLimit whole n.fraction
    let shift : Int := dropped.length + unread.length - n.fraction.length
    let scaled (e : Int) : Except Fault Number :=
      match scale (UInt64.ofNat significand).toFloat e with
      | some x => .ok (signed n.minus x)
      | none   => .error (.consumed .numberOutOfRange after)
    match n.exponent with
    | none => scaled shift
    | some (minus, digits) =>
      match absorb exponentLimit 0 digits with
      | (e, []) => scaled (if minus then shift - e else shift + e)
      | (_, _ :: left) =>
        if significand ≠ 0 && !minus then .error (.consumed .numberOutOfRange (left ++ after))
        else .ok (signed n.minus 0)

end Numeral

end BlankLines.Json
