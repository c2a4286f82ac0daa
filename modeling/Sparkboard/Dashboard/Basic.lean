import Sparkboard.Config
import Sparkboard.Dashboard.Event
/-!
# The dashboard

A dashboard holds the mounted charts, the loader, the running loading bars and the work that is
scheduled for later.  Delayed work is data: a task names the draw, the loader move or the session it
was scheduled for, and does nothing when its time comes after that has been superseded.
-/

namespace Sparkboard

/-- Work for later. -/
inductive Task where
  /-- Take the animation of the draw `generation` off a chart. -/
  | clearAnimation (key : String) (generation : Nat)
  /-- Draw a chart with new data. -/
  | redraw (key : String) (labels : List String) (values : List Float)
  /-- Hide the loader unless it has moved since `generation`. -/
  | autoIdle (generation : Nat)
  /-- The next step of a loading bar. -/
  | loadingTick (session : Nat)
  deriving DecidableEq, Repr

def employeeKey : String := "employee"

def sshKey : String := "ssh"

def signsKey : String := "signs"

/-- The values with which the employee chart is drawn again some time after it was set up. -/
def refreshSample : List Float := [0.0, 2.0, 2.0, 6.0]

/-- The state of a dashboard. -/
structure Dashboard where
  config : Config
  /-- The mounted charts. -/
  charts : Table String ChartTarget
  /-- How often each key was drawn, whatever was mounted under it. -/
  generations : Table String Nat
  board : FlagBoard
  loader : Loader
  /-- The loading bars that are not at rest. -/
  sessions : Table Nat LoadingBar
  /-- How many loading bars were ever started. -/
  started : Nat
  timeline : Timeline Task
  deriving DecidableEq

namespace Dashboard

def new (config : Config) : Dashboard where
  config := config
  charts := .empty
  generations := .empty
  board := .empty
  loader := .fresh
  sessions := .empty
  started := 0
  timeline := .start

/-- Mounts a target under a key; the answer is the target it replaces.  The target is marked as
never drawn, so that nothing scheduled for an earlier target of the key can touch it. -/
def mount (d : Dashboard) (key : String) (target : ChartTarget) :
    Option ChartTarget × Dashboard :=
  (d.charts.get? key,
    { d with charts :=
        d.charts.insert key { target with root := { target.root with generation := 0 } } })

def unmount (d : Dashboard) (key : String) : Option ChartTarget × Dashboard :=
  (d.charts.get? key, { d with charts := d.charts.erase key })

def withDefaultCharts (config : Config) : Dashboard :=
  [employeeKey, sshKey, signsKey].foldl (fun d key => (d.mount key .fresh).2) (new config)

def target? (d : Dashboard) (key : String) : Option ChartTarget :=
  d.charts.get? key

def now (d : Dashboard) : Duration := d.timeline.now

/-- The number of the last draw under a key; zero before the first. -/
def lastGeneration (d : Dashboard) (key : String) : Nat :=
  (d.generations.get? key).getD 0

/-- Schedules a task for `delay` from now. -/
def after (d : Dashboard) (delay : Duration) (task : Task) : Work Dashboard := do
  let timeline ← Work.attempt (d.timeline.after delay task)
  return { d with timeline }

end Dashboard

end Sparkboard
