import Sparkboard.Decimal.Digits
/-!
# The shortest decimal of a float

Among the decimals that round to a given float, the library writes one with the fewest digits, and
among those the nearest to the float.  The search goes through the grids of one, two, three and more
digits in turn: the first grid with a point in the float's rounding interval has one next to the
float itself.
-/

namespace Sparkboard.Decimal

/-- A positive decimal `digits * 10 ^ exponent`. -/
structure Scaled where
  digits : Nat
  exponent : Int
  deriving DecidableEq, Repr

/-- A positive float as a point on a line whose unit makes it, its rounding interval and the points
of one decimal grid whole numbers. -/
structure GridLine where
  /-- Four times the mantissa, in the line's units. -/
  value : Nat
  /-- The lower end of the numbers that round to the float. -/
  low : Nat
  /-- The upper end of the numbers that round to the float. -/
  high : Nat
  /-- Whether the ends themselves round to the float. -/
  closed : Bool
  /-- The distance of two points of the grid. -/
  step : Nat

namespace GridLine

/-- The line for the float `mantissa * 2 ^ exponent` and the multiples of `10 ^ grid`. -/
def of (mantissa : Nat) (exponent grid : Int) : GridLine :=
  let quarter := exponent - 2
  let unit := Nat.pow 2 quarter.toNat * Nat.pow 10 (-grid).toNat
  let below :=
    if mantissa = Binary64.leastNormal ∧ exponent ≠ Binary64.leastExponent then 1 else 2
  { value := 4 * mantissa * unit
    low := (4 * mantissa - below) * unit
    high := (4 * mantissa + 2) * unit
    closed := mantissa % 2 = 0
    step := Nat.pow 10 grid.toNat * Nat.pow 2 (-quarter).toNat }

/-- Does the `n`-th grid point round to the float? -/
def holds (line : GridLine) (n : Nat) : Bool :=
  let point := n * line.step
  if line.closed then line.low ≤ point && point ≤ line.high
  else line.low < point && point < line.high

/-- The grid point next to the float that rounds to it, the nearer one if both neighbours do. -/
def nearest? (line : GridLine) (half : HalfWay) : Option Nat :=
  let floor := line.value / line.step
  match line.holds floor, line.holds (floor + 1) with
  | false, false => none
  | true, false => some floor
  | false, true => some (floor + 1)
  | true, true => some (roundDiv half line.value line.step)

end GridLine

/-- The largest `e` with `10 ^ e ≤ mantissa * 2 ^ exponent`. -/
def magnitude (mantissa : Nat) : Int → Int
  | .ofNat e => ((digits (mantissa * Nat.pow 2 e)).length : Int) - 1
  | .negSucc e => ((digits (mantissa * Nat.pow 10 400 / Nat.pow 2 (e + 1))).length : Int) - 401

/-- Tries the grids from `count` digits on, `tries` of them. -/
def search (half : HalfWay) (mantissa : Nat) (exponent top : Int) : Nat → Nat → Scaled
  | 0, _ => ⟨mantissa, exponent⟩
  | tries + 1, count =>
    let grid := top + 1 - count
    match (GridLine.of mantissa exponent grid).nearest? half with
    | some n => ⟨n, grid⟩
    | none => search half mantissa exponent top tries (count + 1)

def normalize : Nat → Scaled → Scaled
  | 0, d => d
  | tries + 1, d =>
    if d.digits % 10 = 0 ∧ d.digits ≠ 0 then normalize tries ⟨d.digits / 10, d.exponent + 1⟩ else d

/-- The shortest decimal that rounds to the positive float `mantissa * 2 ^ exponent`.  Seventeen
digits always suffice. -/
def shortest (half : HalfWay) (mantissa : Nat) (exponent : Int) : Scaled :=
  normalize 20 (search half mantissa exponent (magnitude mantissa exponent) 17 1)

end Sparkboard.Decimal
