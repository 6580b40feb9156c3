/-!
# Decimal — Shortest

The shortest decimal that reads back as a given binary floating-point number.

A finite number is `mantissa · 2^exponent`; the reals that round to it form an interval whose ends
belong to it exactly when the mantissa is even.  A decimal of `n` digits reads back when it lies in
that interval.  The grid of `n`-digit decimals has two points next to the number, so the first `n`
for which one of the two lies in the interval is the fewest digits; of two the nearer is taken, and
of two equally near the even one.
-/

namespace BlankLines.Decimal

/-- The number `digits · 10^exponent`. -/
structure Scaled where
  digits : Nat
  exponent : Int
deriving DecidableEq, Repr

/-- The number `mantissa · 2^exponent`. -/
structure Binary where
  mantissa : Nat
  exponent : Int
deriving DecidableEq, Repr

namespace Binary

/-- The leading bit of a normal double, which its bits leave out: one in the place above the
fraction. -/
def hiddenBit : Nat := 0x10000000000000

/-- The magnitude that the bits of a finite double denote. -/
def ofBits (bits : UInt64) : Binary :=
  let fraction : Nat := bits.toNat % hiddenBit
  let biased : Nat := bits.toNat / hiddenBit % 2048
  if biased = 0 then ⟨fraction, -1074⟩ else ⟨hiddenBit + fraction, (biased : Int) - 1075⟩

/-- Whether the neighbour below is only half as far away as the one above. -/
def isStepUp (b : Binary) : Bool :=
  b.mantissa = hiddenBit && b.exponent > -1074

end Binary

/-- A number and the ends of its rounding interval, as numerators over one denominator. -/
structure Interval where
  low : Nat
  value : Nat
  high : Nat
  denominator : Nat
  /-- Whether the two ends belong to it. -/
  closed : Bool
deriving DecidableEq, Repr

namespace Interval

/-- The reals that round to `b`, in quarters of its last place. -/
def ofBinary (b : Binary) : Interval :=
  let scale := b.exponent - 2
  let up := Nat.pow 2 scale.toNat
  { low         := (4 * b.mantissa - if b.isStepUp then 1 else 2) * up
    value       := 4 * b.mantissa * up
    high        := (4 * b.mantissa + 2) * up
    denominator := Nat.pow 2 (-scale).toNat
    closed      := b.mantissa % 2 = 0 }

/-- The decimal exponent of the number: the largest `e` with `10^e` at most the number.  Below one
the search stops at `1e-400`, under every double. -/
def magnitude (i : Interval) : Int :=
  if i.denominator ≤ i.value then ((Nat.toDigits 10 (i.value / i.denominator)).length : Int) - 1
  else
    match (List.range' 1 400).find? fun k => i.denominator ≤ i.value * Nat.pow 10 k with
    | some k => -(k : Int)
    | none   => -400

/-- Whether `k · 10^step` lies in the interval. -/
def holds (i : Interval) (step : Int) (k : Nat) : Bool :=
  let point := k * (i.denominator * Nat.pow 10 step.toNat)
  let low := i.low * Nat.pow 10 (-step).toNat
  let high := i.high * Nat.pow 10 (-step).toNat
  if i.closed then low ≤ point && point ≤ high else low < point && point < high

/-- The multiple of `10^step` in the interval that is nearest to the number, if there is one. -/
def nearest? (i : Interval) (step : Int) : Option Nat :=
  let unit := i.denominator * Nat.pow 10 step.toNat
  let value := i.value * Nat.pow 10 (-step).toNat
  let below := value / unit
  let rest := 2 * (value % unit)
  let first := if rest < unit || rest = unit && below % 2 = 0 then below else below + 1
  let second := if first = below then below + 1 else below
  if i.holds step first then some first
  else if i.holds step second then some second
  else none

end Interval

/-- Drops trailing zeros; a number of at most `fuel` of them loses them all. -/
def Scaled.trim : Nat → Scaled → Scaled
  | 0, d => d
  | fuel + 1, d => if d.digits % 10 = 0 then trim fuel ⟨d.digits / 10, d.exponent + 1⟩ else d

/-- The shortest decimal that reads back as `b`; zero is `0`. -/
def shortest (b : Binary) : Scaled :=
  if b.mantissa = 0 then ⟨0, 0⟩
  else
    let i := Interval.ofBinary b
    let e := i.magnitude
    let found := (List.range' 1 17).findSome? fun (n : Nat) =>
      (i.nearest? (e - n + 1)).map fun k => Scaled.mk k (e - n + 1)
    (found.getD ⟨i.value / i.denominator, 0⟩).trim 17

end BlankLines.Decimal
