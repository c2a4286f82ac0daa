import Sparkboard.Chart.Data
import Sparkboard.Dashboard.Basic
/-!
# Drawing charts

A draw checks its input before it touches anything: labels, then values, then whether a chart is
mounted.  A draw that fails leaves the dashboard as it was.  Draws of one key are numbered from one,
and no number is given twice.
-/

namespace Sparkboard

/-- What came of a batch of draws, each list in the order of the draws. -/
structure BatchReport where
  /-- The charts that were drawn, with the number of the draw. -/
  drawn : List (String × Nat)
  failed : List (String × ChartError)
  deriving DecidableEq, Repr

namespace BatchReport

def isComplete (r : BatchReport) : Bool := r.failed.isEmpty

def cons (key : String) (outcome : Except ChartError Nat) (r : BatchReport) : BatchReport :=
  match outcome with
  | .ok generation => { r with drawn := (key, generation) :: r.drawn }
  | .error e => { r with failed := (key, e) :: r.failed }

end BatchReport

namespace Dashboard

/-- What a draw needs, or the first reason against it. -/
def checkDraw (d : Dashboard) (labels : List String) (values : List Float) (key : String) :
    Except ChartError (LabelSet × Series × ChartTarget) := do
  let labels ← LabelSet.ofList labels
  let series ← Series.ofList values
  match d.charts.get? key with
  | some target => return (labels, series, target)
  | none => throw (.missingTarget key)

/-- Draws a chart and starts its animation, to be taken off later.  The answer is the number of the
draw, or the reason why there was none. -/
def draw (d : Dashboard) (labels : List String) (values : List Float) (key : String) :
    Work (Except ChartError Nat × Dashboard) :=
  match d.checkDraw labels values key with
  | .error e => do
    Work.note (.notDrawn key e)
    return (.error e, d)
  | .ok (labels, series, target) => do
    let generation := d.lastGeneration key + 1
    let target := target.redraw labels series generation
    let (ticket, root) := d.config.animator.animate target.root generation
    let d ← { d with
        charts := d.charts.insert key { target with root }
        generations := d.generations.insert key generation
      }.after ticket.clearAfter (.clearAnimation key ticket.generation)
    Work.note (.drawn key generation series.max)
    return (.ok generation, d)

/-- Draws charts in turn against the same labels.  One that fails does not stop the others. -/
def drawAll (d : Dashboard) (labels : List String) :
    List (String × List Float) → Work (BatchReport × Dashboard)
  | [] => return (⟨[], []⟩, d)
  | (key, values) :: rest => do
    let (outcome, d) ← d.draw labels values key
    let (report, d) ← d.drawAll labels rest
    return (report.cons key outcome, d)

/-- Draws the three metrics, and schedules a second draw of the employees. -/
def initCharts (d : Dashboard) (data : ChartData) : Work (BatchReport × Dashboard) := do
  let (report, d) ← d.drawAll data.labels
    [(employeeKey, data.employee), (sshKey, data.ssh), (signsKey, data.signs)]
  Work.note (.initialized report.drawn.length report.failed.length)
  let d ← d.after d.config.refreshDelay (.redraw employeeKey data.labels refreshSample)
  return (report, d)

end Dashboard

end Sparkboard
