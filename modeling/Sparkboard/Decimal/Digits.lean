import Sparkboard.Decimal.Binary64
/-!
# Decimal digits

Whole numbers as digits, and the number a row of digits spells.
-/

namespace Sparkboard.Decimal

/-- The digits of `n` in base ten, most significant first. -/
def digits (n : Nat) : List Char :=
  Nat.toDigits 10 n

def integer : Int → List Char
  | .ofNat n => digits n
  | .negSucc n => '-' :: digits (n + 1)

def isDigit (c : Char) : Bool :=
  '0' ≤ c && c ≤ '9'

def digitValue (c : Char) : Nat :=
  c.toNat - '0'.toNat

/-- The number that a row of digits spells; no digits spell zero. -/
def value (cs : List Char) : Nat :=
  cs.foldl (fun n c => n * 10 + digitValue c) 0

/-- The float nearest to `mantissa * 10 ^ exponent`: an infinity if that is too large, zero if it is
too small.  An exponent far outside the range of a float is never raised to a power. -/
def toFloat (negative : Bool) (mantissa : Nat) (exponent : Int) : Float :=
  let size : Int := (digits mantissa).length
  let magnitude : Float :=
    if mantissa = 0 then 0.0
    else if exponent + size > 400 then 1.0 / 0.0
    else if exponent + size < -400 then 0.0
    else match exponent with
      | .ofNat e => Float.ofScientific mantissa false e
      | .negSucc e => Float.ofScientific mantissa true (e + 1)
  if negative then -magnitude else magnitude

end Sparkboard.Decimal
