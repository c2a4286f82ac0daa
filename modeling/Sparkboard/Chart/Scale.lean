import Sparkboard.Chart.Series
/-!
# Scaling

Values are placed between the height 105, for zero, and the height 5, for the largest value.  The
formula is written once for every arithmetic that has the operations it needs, so that what rounding
may do to it can be said of any rounding; charts use it with floats.
-/

namespace Sparkboard

/-- The arithmetic that placing a value on a chart needs. -/
class ChartArithmetic (α : Type) extends Sub α, Mul α, Div α, LT α where
  ofNat : Nat → α
  isZero : α → Bool
  decLt : DecidableLT α

instance ChartArithmetic.instDecidableLT {α : Type} [ChartArithmetic α] : DecidableLT α :=
  ChartArithmetic.decLt

instance : ChartArithmetic Float where
  ofNat := Float.ofNat
  isZero x := x == 0.0
  decLt := inferInstance

namespace Scale

variable {α : Type} [ChartArithmetic α]

def bottom : α := ChartArithmetic.ofNat 105

/-- How far the largest value stands above a zero. -/
def span : α := ChartArithmetic.ofNat 100

/-- The larger of two values, the first if neither is. -/
def larger (a b : α) : α :=
  if a < b then b else a

def maximum (values : Slots α) : α :=
  larger (larger (larger values.first values.second) values.third) values.fourth

/-- What values are measured by: their maximum, or one where that is zero. -/
def divisor (max : α) : α :=
  if ChartArithmetic.isZero max then ChartArithmetic.ofNat 1 else max

/-- The height of a value measured against `max`. -/
def height (max value : α) : α :=
  bottom - span * (value / divisor max)

/-- The heights of the values measured against `max`. -/
def heights (values : Slots α) (max : α) : Slots α :=
  values.map (height max)

end Scale

namespace Series

def max (s : Series) : Float :=
  Scale.maximum s.values

/-- The points of a series measured against `max`. -/
def pointsAgainst (s : Series) (max : Float) : List Point :=
  (Viewport.slotX.zipWith Point.mk (Scale.heights s.values max)).toList

/-- The points of a series measured against its own maximum. -/
def points (s : Series) : List Point :=
  s.pointsAgainst s.max

end Series

end Sparkboard
