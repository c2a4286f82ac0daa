import Sparkboard.Decimal.Digits
/-!
# Floats in JSON text

A number in a JSON text is not read as the float nearest to it.  Its digits are collected in a
significand of 64 bits, and the significand, as a float, is multiplied with a power of ten or
divided by one.  Digits that the significand does not hold are not looked at, and each of the steps
may round.  A number that leaves the range of floats on the way is refused.
-/

namespace Sparkboard.Json

/-- Appends digits to a number as long as it fits 64 bits, and returns the digits left over. -/
def absorb (n : Nat) : List Char → Nat × List Char
  | [] => (n, [])
  | c :: rest =>
    let longer := n * 10 + Decimal.digitValue c
    if longer < Nat.pow 2 64 then absorb longer rest else (n, c :: rest)

/-- The power of ten that is a float, or next to it, for exponents up to 308. -/
def powerOfTen (k : Nat) : Float :=
  Float.ofScientific 1 false k

/-- A float divided by a power of ten, in steps of at most 308 zeros.  Nothing is divided again once
it is zero. -/
def divided (x : Float) (k : Nat) : Float :=
  if k ≤ 308 then x / powerOfTen k
  else if x == 0.0 then x
  else divided (x / powerOfTen 308) (k - 308)
termination_by k

/-- A float times a power of ten, unless that is too large. -/
def scaled? (x : Float) : Int → Option Float
  | .ofNat k =>
    if k ≤ 308 then
      let product := x * powerOfTen k
      if product.isInf then none else some product
    else if x == 0.0 then some x
    else none
  | .negSucc k => some (divided x (k + 1))

/-- The digits of a number as far as 64 bits hold them, and the exponent of the power of ten that
they count for. -/
structure Significand where
  digits : Nat
  exponent : Int

namespace Significand

/-- The significand of the digits on both sides of the point.  Digits left over in front of the
point still count for a power of ten each. -/
def of (whole places : List Char) : Significand :=
  let (head, surplus) := absorb 0 whole
  let (digits, ignored) := absorb head places
  ⟨digits, surplus.length + ignored.length - places.length⟩

def float? (s : Significand) (negative : Bool) : Option Float :=
  (scaled? s.digits.toUInt64.toFloat s.exponent).map fun x => if negative then -x else x

/-- The float of a significand with a sign and a further power of ten.  The power is not worked out
if 31 bits do not hold it. -/
def raised? (s : Significand) (negative : Bool) (minus : Bool) (power : Nat) : Option Float :=
  if power < Nat.pow 2 31 then
    let power : Int := if minus then -power else power
    float? ⟨s.digits, s.exponent + power⟩ negative
  else if s.digits = 0 || minus then some (if negative then -0.0 else 0.0)
  else none

end Significand

end Sparkboard.Json
