/-!
# The exact value of a float

A finite 64-bit float is a whole number times a power of two.  Everything the library writes about
a float (its shortest text, its hundredths, its pixel) is worked out on that pair, so that no digit
depends on how a machine rounds.
-/

namespace Sparkboard

/-- What a 64-bit float stands for. -/
inductive Binary64 where
  /-- Not a number. -/
  | nan
  /-- An infinity of either sign. -/
  | infinite (negative : Bool)
  /-- The number `mantissa * 2 ^ exponent`, negated if `negative`; zero keeps its sign. -/
  | finite (negative : Bool) (mantissa : Nat) (exponent : Int)
  deriving DecidableEq, Repr

namespace Binary64

def leastNormal : Nat := Nat.pow 2 52

/-- The exponent shared by zero, the subnormal numbers and the smallest normal ones. -/
def leastExponent : Int := -1074

/-- Takes the sign, the biased exponent and the fraction out of the 64 bits. -/
def ofBits (bits : UInt64) : Binary64 :=
  let n := bits.toNat
  let negative := n / Nat.pow 2 63 == 1
  let biased := n / Nat.pow 2 52 % Nat.pow 2 11
  let fraction := n % Nat.pow 2 52
  if biased = 2047 then
    if fraction = 0 then infinite negative else nan
  else if biased = 0 then finite negative fraction leastExponent
  else finite negative (leastNormal + fraction) (leastExponent + (biased - 1 : Nat))

/-- What the float stands for. -/
def ofFloat (x : Float) : Binary64 :=
  ofBits x.toBits

end Binary64

/-- How a quotient that falls half-way between two whole numbers is rounded. -/
inductive HalfWay where
  /-- To the even neighbour. -/
  | toEven
  /-- To the larger neighbour. -/
  | up
  deriving DecidableEq, Repr

/-- The whole number nearest to `num / den`. -/
def roundDiv (half : HalfWay) (num den : Nat) : Nat :=
  let floor := num / den
  let rest := num % den
  if 2 * rest < den then floor
  else if den < 2 * rest then floor + 1
  else match half with
    | .toEven => if floor % 2 = 0 then floor else floor + 1
    | .up => floor + 1

/-- The whole number nearest to `n * 2 ^ exponent`. -/
def roundScaled (half : HalfWay) (n : Nat) (exponent : Int) : Nat :=
  match exponent with
  | .ofNat e => n * Nat.pow 2 e
  | .negSucc e => roundDiv half n (Nat.pow 2 (e + 1))

end Sparkboard
