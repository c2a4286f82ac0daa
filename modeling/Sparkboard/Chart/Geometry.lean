import Sparkboard.Chart.Viewport
import Sparkboard.Decimal.Layout
/-!
# Lines and areas

A chart shows a line through its points and, below it, an area closed along the baseline.
-/

namespace Sparkboard

/-- The line of a chart and the outline of the area below it. -/
structure Geometry where
  line : List Point
  area : List Point
  deriving DecidableEq, Repr

namespace Geometry

/-- Where the outline of an area starts, on the baseline below the first slot. -/
def areaStart : Point := ⟨Viewport.slotX.first, Viewport.baselineY⟩

/-- Where the outline of an area ends, on the baseline below the last slot. -/
def areaEnd : Point := ⟨Viewport.slotX.fourth, Viewport.baselineY⟩

def through (points : List Point) : Geometry where
  line := points
  area := areaStart :: (points ++ [areaEnd])

end Geometry

/-- The two coordinates of a point, joined by a comma. -/
def Point.text (p : Point) : String :=
  Decimal.coordinate p.x ++ "," ++ Decimal.coordinate p.y

/-- Points as the attribute `points` of a vector graphic: separated by single blanks. -/
def pointsAttribute (points : List Point) : String :=
  " ".intercalate (points.map Point.text)

end Sparkboard
