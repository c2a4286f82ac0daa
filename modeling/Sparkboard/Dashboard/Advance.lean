import Sparkboard.Dashboard.Draw
/-!
# Passing time

Time passes only when the host says so.  All tasks that come due are run in order, those included
that are scheduled meanwhile, each with the clock at its due time.

Every task run brings the work that is left down by at least one, so the work left at the start
bounds the number of tasks: `workload` is the fuel of the loop.
-/

namespace Sparkboard

namespace Dashboard

def moveLoader (d : Dashboard) (move : List FlagChange × Loader) : Work Dashboard := do
  Work.note (.loaderMoved d.loader.state move.2.state)
  return { d with board := d.board.applyAll move.1, loader := move.2 }

def loaderStart (d : Dashboard) : Work Dashboard := d.moveLoader d.loader.start

def loaderStep (d : Dashboard) : Work Dashboard := d.moveLoader d.loader.step

def loaderHide (d : Dashboard) : Work Dashboard := d.moveLoader d.loader.hide

/-- Shows success, and schedules the loader to be hidden. -/
def loaderFinishSuccess (d : Dashboard) : Work Dashboard := do
  let d ← d.moveLoader d.loader.finishSuccess
  d.after d.config.loaderAutoIdle (.autoIdle d.loader.generation)

/-- Starts a loading bar; the answer is its session. -/
def startLoadingBar (d : Dashboard) : Work (Nat × Dashboard) := do
  let session := d.started
  let (delay, bar) := LoadingBar.rest.start d.config.barTiming
  let d ← { d with
      started := session + 1
      sessions := d.sessions.insert session bar
    }.after delay (.loadingTick session)
  return (session, d)

/-- Takes the animation of a draw off a chart that still shows this draw. -/
def clearAnimation (d : Dashboard) (key : String) (generation : Nat) : Work Dashboard :=
  match d.charts.get? key with
  | none => do
    Work.note (.clearOfUnmounted key)
    return d
  | some target =>
    match target.root.finishAnimation generation with
    | (true, root) => return { d with charts := d.charts.insert key { target with root } }
    | (false, _) => do
      Work.note (.staleClear key generation)
      return d

/-- Hides a loader that has not moved since `generation`. -/
def autoIdle (d : Dashboard) (generation : Nat) : Work Dashboard :=
  match d.loader.autoIdle? generation with
  | some move => d.moveLoader move
  | none => do
    Work.note (.staleAutoIdle generation)
    return d

/-- Makes the next step of a loading bar, and schedules the one after it. -/
def tickLoadingBar (d : Dashboard) (session : Nat) : Work Dashboard :=
  match d.sessions.get? session with
  | none => return d
  | some bar =>
    match bar.tick d.config.barTiming with
    | (some delay, bar) =>
      { d with sessions := d.sessions.insert session bar }.after delay (.loadingTick session)
    | (none, _) => do
      Work.note (.sessionFinished session)
      return { d with sessions := d.sessions.erase session }

def run (d : Dashboard) : Task → Work Dashboard
  | .clearAnimation key generation => d.clearAnimation key generation
  | .redraw key labels values => do
    let (_, d) ← d.draw labels values key
    return d
  | .autoIdle generation => d.autoIdle generation
  | .loadingTick session => d.tickLoadingBar session

/-- How many tasks are run at most on account of a task: itself, the removal of the animation that a
draw starts, and the steps that a loading bar still needs. -/
def effort (d : Dashboard) : Task → Nat
  | .clearAnimation .. => 1
  | .redraw .. => 2
  | .autoIdle _ => 1
  | .loadingTick session =>
    match d.sessions.get? session with
    | some bar => bar.ticksLeft
    | none => 1

/-- How many tasks are run at most on account of all that waits. -/
def workload (d : Dashboard) : Nat :=
  d.timeline.pending.foldr (fun e rest => d.effort e.task + rest) 0

/-- Runs tasks as long as `pop` takes one off the timeline; the answer lists them in order. -/
def drain (pop : Timeline Task → Option (Entry Task × Timeline Task)) :
    Nat → Dashboard → Work (List (Entry Task) × Dashboard)
  | 0, d => return ([], d)
  | fuel + 1, d =>
    match pop d.timeline with
    | none => return ([], d)
    | some (entry, timeline) => do
      let d ← { d with timeline }.run entry.task
      let (entries, d) ← drain pop fuel d
      return (entry :: entries, d)

/-- Lets time pass and runs every task that comes due.  The answer lists the tasks. -/
def advance (d : Dashboard) (dt : Duration) : Work (List (Entry Task) × Dashboard) := do
  match d.timeline.now.add? dt with
  | none => Work.attempt (.error .overflow)
  | some limit =>
    let (entries, d) ← drain (·.popDue? limit) d.workload d
    return (entries, { d with timeline := d.timeline.advanceTo limit })

/-- Runs tasks until none waits.  The answer lists them. -/
def runUntilIdle (d : Dashboard) : Work (List (Entry Task) × Dashboard) :=
  drain Timeline.pop? d.workload d

end Dashboard

end Sparkboard
