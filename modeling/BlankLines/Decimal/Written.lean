import BlankLines.Decimal.Shortest

/-!
# Decimal — Written

How floating-point numbers are written: the shortest digits that read back, laid out by a style.

* `Style.report`: positional between `1e-4` and `1e16`, else with a signed exponent of two digits.
* `Style.plain`: always positional, and with names for what is not finite.
-/

namespace BlankLines.Decimal

/-- The decisions a way of writing numbers leaves open. -/
structure Style where
  /-- Whether a leading digit at this power of ten is written without an exponent. -/
  positional : Int → Bool
  infinity : String
  nan : String

/-- Positional from `1e-4` up to but not including `1e16`. -/
def Style.report : Style :=
  ⟨fun e => -4 ≤ e && e < 16, "inf", "NaN"⟩

/-- Never an exponent. -/
def Style.plain : Style :=
  ⟨fun _ => true, "inf", "NaN"⟩

/-- The digits with a point `places` digits after the first one's left; a whole number ends in
`.0`. -/
def pointed (digits : List Char) (places : Int) : List Char :=
  let zeros (n : Nat) := List.replicate n '0'
  if places ≤ 0 then '0' :: '.' :: zeros (-places).toNat ++ digits
  else if digits.length ≤ places.toNat then
    digits ++ zeros (places.toNat - digits.length) ++ ['.', '0']
  else digits.take places.toNat ++ '.' :: digits.drop places.toNat

/-- An exponent's sign and at least two digits. -/
def exponentText (e : Int) : List Char :=
  let digits := Nat.toDigits 10 e.natAbs
  (if e < 0 then '-' else '+') :: List.replicate (2 - digits.length) '0' ++ digits

/-- One digit, the rest after a point if there are any, and the exponent. -/
def scientific (digits : List Char) (e : Int) : List Char :=
  match digits with
  | []         => []
  | [d]        => d :: 'e' :: exponentText e
  | d :: after => d :: '.' :: after ++ 'e' :: exponentText e

/-- A non-negative decimal in a style. -/
def Scaled.text (style : Style) (d : Scaled) : String :=
  let digits := Nat.toDigits 10 d.digits
  let e := d.exponent + digits.length - 1
  String.ofList (if style.positional e then pointed digits (e + 1) else scientific digits e)

/-- A floating-point number in a style. -/
def floatText (style : Style) (x : Float) : String :=
  if x.isNaN then style.nan
  else
    let negative := 0x8000000000000000 ≤ x.toBits
    let sign := if negative then "-" else ""
    if x.isInf then sign ++ style.infinity
    else sign ++ (shortest (Binary.ofBits x.toBits)).text style

end BlankLines.Decimal
