import Sparkboard.Activity
import Sparkboard.Command.Options
import Sparkboard.Command.Render
import Sparkboard.Files.Load
import Sparkboard.Files.Save
import Sparkboard.Time.Rfc3339
/-!
# Running a command

A command is run on a file tree.  The report holds what it printed, the changes it made to files in
order, and the tree after them, so that the outer layer only has to repeat the changes on a disk.
-/

namespace Sparkboard.Command

/-- A change to the files. -/
inductive FileChange where
  /-- A directory was made, with those above it. -/
  | directory (path : String)
  /-- A file was written; the tree holds what. -/
  | file (path : String)
  deriving DecidableEq, Repr

/-- The state of a running command. -/
structure Session where
  files : FileTree
  /-- The lines for standard output. -/
  out : Array String
  /-- The lines for standard error. -/
  err : Array String
  changes : Array FileChange

/-- How a command ends early. -/
inductive Failure where
  /-- With an error that is reported. -/
  | error (message : String)
  /-- Because the clock or the calendar does not reach far enough. -/
  | outOfTime (message : String)
  deriving DecidableEq, Repr

/-- A step of a command. -/
abbrev Step := ExceptT Failure (StateM Session)

def print (line : String) : Step Unit :=
  modify fun s => { s with out := s.out.push line }

def warn (line : String) : Step Unit :=
  modify fun s => { s with err := s.err.push line }

def fail {α : Type} (message : String) : Step α :=
  throw (.error message)

def loaded {α : Type} : Except LoadError α → Step α
  | .ok a => return a
  | .error e => fail e.message

def worked {α : Type} (w : Work α) : Step α :=
  match w.result with
  | .ok a => return a
  | .error e => throw (.outOfTime e.message)

def makeDirectory (path : String) : Step Unit := do
  match (← get).files.makeDirectories path with
  | .ok files => modify fun s => { s with files, changes := s.changes.push (.directory path) }
  | .error _ => fail s!"creating {path}"

def save (path : String) (saving : FileTree → Except SaveError FileTree) : Step Unit := do
  match saving (← get).files with
  | .ok files => modify fun s => { s with files, changes := s.changes.push (.file path) }
  | .error e => fail e.message

def settings (o : RenderOptions) (files : FileTree) : Step Config :=
  match o.config with
  | some path => loaded (files.loadConfig path)
  | none => return .default

/-- Writes the pictures of the visible charts, and the snapshot if one is asked for. -/
def writeRendering (o : RenderOptions) (rendering : Rendering) : Step Unit := do
  makeDirectory o.outDir
  for (key, target) in rendering.visible do
    let path := Path.join o.outDir s!"{key}.svg"
    save path (·.saveSvg target path o.scale)
    warn s!"Wrote chart to {path}"
  if let some path := o.snapshot then
    save path (·.saveSnapshot rendering.dashboard path)
    warn s!"Wrote snapshot to {path}"

def render (o : RenderOptions) : Step Unit := do
  let files := (← get).files
  let config ← settings o files
  let data ← loaded (files.loadChartData o.input)
  let rendering ← worked (Rendering.ofData config data o.refresh)
  for (key, e) in rendering.skipped do
    warn s!"Skipped chart {key}: {e.message}"
  if rendering.isEmpty then fail s!"no chart could be drawn from {o.input}"
  else writeRendering o rendering

/-- Moves the loader step by step and prints each state. -/
def stepLoader : Nat → Dashboard → Step Dashboard
  | 0, d => return d
  | n + 1, d => do
    let d ← worked d.loaderStep
    print s!"step    -> {d.loader.state.name}"
    stepLoader n d

def loader (o : LoaderOptions) : Step Unit := do
  let d ← stepLoader o.steps (Dashboard.new .default)
  if o.finish then
    let d ← worked d.loaderFinishSuccess
    print s!"finish  -> {d.loader.state.name}"
    let (_, d) ← worked d.runUntilIdle
    print s!"auto    -> {d.loader.state.name}"

def activity (o : ActivityOptions) (clock : Instant) : Step Unit := do
  let timestamps ← loaded ((← get).files.loadTimestamps o.input)
  let now ←
    match o.now with
    | none => pure clock
    | some text =>
      match Rfc3339.parse? text with
      | some t => pure t
      | none => fail s!"invalid --now `{text}`, expected RFC 3339"
  match Activity.recent timestamps now with
  | .error e => throw (.outOfTime e.message)
  | .ok (.error e) => fail e.message
  | .ok (.ok recent) => print recent.toJson.pretty

/-- What a command did. -/
structure Report where
  /-- The exit code. -/
  code : Nat
  out : String
  err : String
  changes : List FileChange
  files : FileTree

/-- Lines of text, each with its line break. -/
def lines (ls : Array String) : String :=
  String.join (ls.toList.map (· ++ "\n"))

/-- The report of a command that ran to its end or failed. -/
def Report.ofStep (step : Step Unit) (files : FileTree) : Report :=
  let (result, s) := step.run.run ⟨files, #[], #[], #[]⟩
  let report (code : Nat) (err : Array String) : Report :=
    ⟨code, lines s.out, lines err, s.changes.toList, s.files⟩
  match result with
  | .ok () => report 0 s.err
  | .error (.error message) => report 1 (s.err.push ("Error: " ++ message))
  | .error (.outOfTime message) => report 101 (s.err.push message)

def versionLine : String := "dashviz 0.1.0"

def usageLines : Array String := #[
  "Usage:",
  "  render -i FILE -o DIRECTORY [--config FILE] [--scale 1..64] [--refresh] [--snapshot FILE]",
  "  loader [--steps N] [--finish]",
  "  activity -i FILE [--now TIMESTAMP]"]

/-- Runs a command line on a file tree; `clock` is the time at which it runs. -/
def run (args : List String) (files : FileTree) (clock : Instant) : Report :=
  match Request.parse args with
  | .error e => ⟨2, "", lines (#["Error: " ++ e.message] ++ usageLines), [], files⟩
  | .ok .version => ⟨0, lines #[versionLine], "", [], files⟩
  | .ok .help => ⟨0, lines usageLines, "", [], files⟩
  | .ok (.render o) => .ofStep (render o) files
  | .ok (.loader o) => .ofStep (loader o) files
  | .ok (.activity o) => .ofStep (activity o clock) files

/-- The paths on which the outcome of a command depends: what it reads, what it writes, and the
directories that lead there. -/
def Request.paths : Request → List String
  | .render o =>
    let pictures := [employeeKey, sshKey, signsKey].map fun key => Path.join o.outDir s!"{key}.svg"
    ([o.input, o.outDir] ++ pictures ++ o.config.toList ++ o.snapshot.toList).flatMap Path.ancestors
  | .activity o => Path.ancestors o.input
  | _ => []

end Sparkboard.Command
