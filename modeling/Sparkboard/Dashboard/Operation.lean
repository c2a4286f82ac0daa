import Sparkboard.Dashboard.Advance
import Sparkboard.Chart.Codec
/-!
# Operations on a dashboard

All that a host can do with a dashboard, as data, so that a history of a dashboard is a list.
-/

namespace Sparkboard

/-- Something a host does with a dashboard. -/
inductive Operation where
  | mount (key : String) (target : ChartTarget)
  | unmount (key : String)
  | draw (labels : List String) (values : List Float) (key : String)
  | initCharts (data : ChartData)
  | loaderStart
  | loaderStep
  | loaderFinishSuccess
  | loaderHide
  | startLoadingBar
  | advance (dt : Duration)
  | runUntilIdle
  deriving DecidableEq

/-- What an operation answers. -/
inductive Answer where
  | nothing
  /-- The target that was mounted before. -/
  | target (previous : Option ChartTarget)
  /-- The number of a draw, or the reason why there was none. -/
  | draw (outcome : Except ChartError Nat)
  | batch (report : BatchReport)
  | session (id : Nat)
  /-- The tasks that were run. -/
  | ran (entries : List (Entry Task))

namespace Dashboard

def perform (d : Dashboard) : Operation → Work (Answer × Dashboard)
  | .mount key target =>
    let (previous, d) := d.mount key target
    return (.target previous, d)
  | .unmount key =>
    let (previous, d) := d.unmount key
    return (.target previous, d)
  | .draw labels values key => do
    let (outcome, d) ← d.draw labels values key
    return (.draw outcome, d)
  | .initCharts data => do
    let (report, d) ← d.initCharts data
    return (.batch report, d)
  | .loaderStart => do return (.nothing, ← d.loaderStart)
  | .loaderStep => do return (.nothing, ← d.loaderStep)
  | .loaderFinishSuccess => do return (.nothing, ← d.loaderFinishSuccess)
  | .loaderHide => do return (.nothing, ← d.loaderHide)
  | .startLoadingBar => do
    let (session, d) ← d.startLoadingBar
    return (.session session, d)
  | .advance dt => do
    let (entries, d) ← d.advance dt
    return (.ran entries, d)
  | .runUntilIdle => do
    let (entries, d) ← d.runUntilIdle
    return (.ran entries, d)

/-- Carries out operations in turn; the answers are in order. -/
def performAll (d : Dashboard) : List Operation → Work (List Answer × Dashboard)
  | [] => return ([], d)
  | op :: ops => do
    let (answer, d) ← d.perform op
    let (answers, d) ← d.performAll ops
    return (answer :: answers, d)

/-- The geometry of every mounted chart as JSON, by key. -/
def snapshot (d : Dashboard) : Json :=
  .object (d.charts.entries.map fun e => (e.1, e.2.toJson))

end Dashboard

end Sparkboard
