import Sparkboard.Chart.Svg
import Sparkboard.Dashboard.Operation
/-!
# Rendering chart data

What the command `render` makes of its data, before any file is written: which charts are skipped,
and the pictures of the others in the order of their keys.
-/

namespace Sparkboard

/-- The charts of one set of data. -/
structure Rendering where
  /-- The charts whose data cannot be drawn. -/
  skipped : List (String × ChartError)
  /-- The dashboard with the other charts drawn. -/
  dashboard : Dashboard

namespace Rendering

/-- Draws the data on a new dashboard, and lets the second draw of the employees come due if
`refresh` is set.  The data draw no chart at all if all three are skipped; then there is nothing to
refresh. -/
def ofData (config : Config) (data : ChartData) (refresh : Bool) : Work Rendering := do
  let (report, d) ← (Dashboard.withDefaultCharts config).initCharts data
  if report.drawn.isEmpty || !refresh then return ⟨report.failed, d⟩
  let (_, d) ← d.advance config.refreshDelay
  return ⟨report.failed, d⟩

def isEmpty (r : Rendering) : Bool :=
  r.skipped.length = 3

/-- The charts that show something, in the order of their keys. -/
def visible (r : Rendering) : List (String × ChartTarget) :=
  r.dashboard.charts.entries.filter fun e => !e.2.line.isEmpty

end Rendering

end Sparkboard
