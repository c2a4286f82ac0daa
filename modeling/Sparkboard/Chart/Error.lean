import Sparkboard.Chart.Viewport
import Sparkboard.Decimal.Layout
/-!
# Why a chart is not drawn
-/

namespace Sparkboard

/-- What has to fill the slots of the viewport. -/
inductive SlotContent where
  | series
  | labelSet
  deriving DecidableEq, Repr

def SlotContent.name : SlotContent → String
  | series => "series"
  | labelSet => "label set"

/-- Why a chart is not drawn. -/
inductive ChartError where
  /-- No chart is mounted under the key. -/
  | missingTarget (key : String)
  /-- The values or labels do not fill the slots exactly. -/
  | wrongCount (content : SlotContent) (count : Nat)
  /-- A value is not a number, infinite or negative. -/
  | unplottable (slot : Nat) (value : Float)
  deriving DecidableEq, Repr

def ChartError.message : ChartError → String
  | missingTarget key => s!"no chart target mounted for analytic key `{key}`"
  | wrongCount content count =>
    s!"{content.name} has {count} entries, the viewport has {Slots.count} slots"
  | unplottable slot value =>
    s!"value {Decimal.message value} at slot {slot} cannot be plotted"

end Sparkboard
