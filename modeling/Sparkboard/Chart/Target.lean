import Sparkboard.Chart.Scale
import Sparkboard.Chart.Geometry
/-!
# Chart targets

A target is what one chart is drawn into: a root that may be animated and remembers the last draw,
the line, the area below it, and the labels along the axis.  A draw replaces all of them, so nothing
of an earlier draw stays behind.
-/

namespace Sparkboard

/-- An animation that runs on a chart. -/
structure Animation where
  name : String
  durationMs : Nat
  deriving DecidableEq, Repr

/-- The root of a chart. -/
structure ChartRoot where
  animation : Option Animation
  /-- The number of the draw that the chart shows; zero before the first. -/
  generation : Nat
  deriving DecidableEq, Repr

/-- A text on the axis. -/
structure AxisLabel where
  x : Float
  y : Float
  text : String
  deriving DecidableEq, Repr

/-- What a chart is drawn into. -/
structure ChartTarget where
  root : ChartRoot
  line : List Point
  area : List Point
  axis : List AxisLabel
  deriving DecidableEq, Repr

namespace ChartRoot

def fresh : ChartRoot := ⟨none, 0⟩

end ChartRoot

/-- The axis labels of a label set, one below each slot. -/
def axisLabels (labels : LabelSet) : List AxisLabel :=
  (Viewport.labelX.zipWith (fun x text => ⟨x, Viewport.labelY, text⟩) labels).toList

namespace ChartTarget

def fresh : ChartTarget := ⟨.fresh, [], [], []⟩

instance : Inhabited ChartTarget := ⟨fresh⟩

def relabel (t : ChartTarget) (labels : LabelSet) : ChartTarget :=
  { t with axis := axisLabels labels }

/-- Replaces all that the target shows and notes the number of the draw.  A running animation goes
on. -/
def redraw (t : ChartTarget) (labels : LabelSet) (series : Series) (generation : Nat) :
    ChartTarget :=
  let geometry := Geometry.through series.points
  { root := { t.root with generation }
    line := geometry.line
    area := geometry.area
    axis := axisLabels labels }

end ChartTarget

end Sparkboard
