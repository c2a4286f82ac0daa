import Sparkboard.Dashboard.Operation
/-!
# Deeds and histories

A run of a dashboard, taken apart into the smallest things that it does, its deeds.  The history of
a run lists them in order, each with the dashboard right before it, so it tells what was drawn when
and what happened while a task waited.
-/

namespace Sparkboard

/-- The smallest things that a dashboard does. -/
inductive Deed where
  | mount (key : String) (target : ChartTarget)
  | unmount (key : String)
  /-- A draw, whether the host asked for it, a batch or a redraw that came due. -/
  | draw (labels : List String) (values : List Float) (key : String)
  /-- The end of a batch: the second draw of the employees is scheduled. -/
  | planRedraw (labels : List String)
  | moveLoader (state : LoaderState)
  /-- The loader shows success and is scheduled to be hidden. -/
  | finishLoader
  | startBar
  /-- The next task comes due, is taken off the timeline and run.  Of a redraw, the draw is a deed
  of its own that follows. -/
  | fire (entry : Entry Task)
  /-- The clock moves on, with nothing left to run until then. -/
  | wait (moment : Duration)
  deriving DecidableEq

def Deed.running (entry : Entry Task) : List Deed :=
  match entry.task with
  | .redraw key labels values => [.fire entry, .draw labels values key]
  | _ => [.fire entry]

/-- A deed, and the dashboard right before it. -/
structure Moment where
  before : Dashboard
  deed : Deed

/-- What was done in a run, in order. -/
abbrev History := List Moment

namespace Dashboard

/-- The dashboard with the next task taken off, at the time when that is due. -/
def popped (d : Dashboard) : Dashboard :=
  match d.timeline.pop? with
  | none => d
  | some (_, timeline) => { d with timeline }

def act (d : Dashboard) : Deed → Work Dashboard
  | .mount key target => return (d.mount key target).2
  | .unmount key => return (d.unmount key).2
  | .draw labels values key => do
    let (_, d) ← d.draw labels values key
    return d
  | .planRedraw labels => d.after d.config.refreshDelay (.redraw employeeKey labels refreshSample)
  | .moveLoader state => d.moveLoader (d.loader.move state)
  | .finishLoader => d.loaderFinishSuccess
  | .startBar => do
    let (_, d) ← d.startLoadingBar
    return d
  | .fire entry =>
    match entry.task with
    | .redraw .. => return d.popped
    | task => d.popped.run task
  | .wait moment => return { d with timeline := d.timeline.advanceTo moment }

def deeds (d : Dashboard) : Operation → Answer → List Deed
  | .mount key target, _ => [.mount key target]
  | .unmount key, _ => [.unmount key]
  | .draw labels values key, _ => [.draw labels values key]
  | .initCharts data, _ => [
      .draw data.labels data.employee employeeKey,
      .draw data.labels data.ssh sshKey,
      .draw data.labels data.signs signsKey,
      .planRedraw data.labels]
  | .loaderStart, _ => [.moveLoader .request]
  | .loaderStep, _ => [.moveLoader d.loader.state.next]
  | .loaderFinishSuccess, _ => [.finishLoader]
  | .loaderHide, _ => [.moveLoader .idle]
  | .startLoadingBar, _ => [.startBar]
  | .advance dt, .ran entries =>
    entries.flatMap Deed.running ++ ((d.now.add? dt).map Deed.wait).toList
  | .runUntilIdle, .ran entries => entries.flatMap Deed.running
  | _, _ => []

/-- The moments at which deeds are done one after another. -/
def replay (d : Dashboard) : List Deed → History
  | [] => []
  | deed :: rest =>
    ⟨d, deed⟩ ::
      match (d.act deed).result with
      | .ok d' => d'.replay rest
      | .error _ => []

def history (d : Dashboard) : List Operation → History
  | [] => []
  | op :: ops =>
    match (d.perform op).result with
    | .ok (answer, d') => d.replay (d.deeds op answer) ++ d'.history ops
    | .error _ => []

end Dashboard

/-- A draw that came off. -/
structure Drawing where
  labels : List String
  values : List Float
  generation : Nat
  /-- The clock at the draw. -/
  time : Duration

/-- What can happen to the chart of a key. -/
inductive ChartChange where
  | mounted (target : ChartTarget)
  | unmounted
  | drawn (drawing : Drawing)

namespace Moment

def drawing? (m : Moment) (key : String) : Option Drawing :=
  match m.deed with
  | .draw labels values k =>
    if k = key then
      match (m.before.draw labels values k).result with
      | .ok (.ok generation, _) => some ⟨labels, values, generation, m.before.now⟩
      | _ => none
    else none
  | _ => none

def chartChange? (m : Moment) (key : String) : Option ChartChange :=
  match m.deed with
  | .mount k target => if k = key then some (.mounted target) else none
  | .unmount k => if k = key then some .unmounted else none
  | _ => (m.drawing? key).map .drawn

end Moment

namespace History

/-- The draws that came off under a key, in order. -/
def drawings (h : History) (key : String) : List Drawing :=
  h.filterMap (·.drawing? key)

def lastDrawing? (h : History) (key : String) : Option Drawing :=
  (h.drawings key).getLast?

/-- What happened to the chart of a key, in order. -/
def changes (h : History) (key : String) : List ChartChange :=
  h.filterMap (·.chartChange? key)

def lastChange? (h : History) (key : String) : Option ChartChange :=
  (h.changes key).getLast?

end History

end Sparkboard
