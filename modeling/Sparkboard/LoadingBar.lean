import Sparkboard.Json.Reader
import Sparkboard.Json.Value
import Sparkboard.Time.Duration
/-!
# The loading bar

A bar fades in, fills in steps of ten percent, settles, and fades out.  Each step tells how long to
wait for the next; when the bar has faded out it is as it was before it started.
-/

namespace Sparkboard

open Json (Reader)

/-- What a bar is doing. -/
inductive BarPhase where
  | hidden
  | fadingIn
  | filling
  | settling
  | fadingOut
  deriving DecidableEq, Repr

namespace BarPhase

def name : BarPhase → String
  | hidden => "Hidden"
  | fadingIn => "FadingIn"
  | filling => "Filling"
  | settling => "Settling"
  | fadingOut => "FadingOut"

/-- All phases, by their names. -/
def choices : List (String × BarPhase) :=
  [hidden, fadingIn, filling, settling, fadingOut].map fun p => (p.name, p)

def toJson (p : BarPhase) : Json := .string p.name

def reader : Reader BarPhase := Reader.variant choices

end BarPhase

/-- How long a bar stays in its phases. -/
structure BarTiming where
  fadeIn : Duration
  tick : Duration
  settle : Duration
  fadeOut : Duration
  deriving DecidableEq, Repr

/-- A loading bar. -/
structure LoadingBar where
  phase : BarPhase
  visible : Bool
  animation : Option String
  /-- The width that the next step gives to the filled part. -/
  progress : Nat
  /-- The width of the filled part in percent. -/
  width : Nat
  deriving DecidableEq, Repr

namespace LoadingBar

def rest : LoadingBar := ⟨.hidden, false, none, 0, 0⟩

instance : Inhabited LoadingBar := ⟨rest⟩

/-- By how much the filled part grows in a step. -/
def stepPercent : Nat := 10

/-- The last width that is shown. -/
def fullPercent : Nat := 100

/-- The animation of a bar that appears and fills. -/
def fadeInName : String := "fadeIn"

def fadeOutName : String := "fadeOut"

def started : LoadingBar := ⟨.fadingIn, true, some fadeInName, 0, 0⟩

/-- Starts a bar over; the answer is the wait before it fills. -/
def start (_ : LoadingBar) (timing : BarTiming) : Duration × LoadingBar :=
  (timing.fadeIn, started)

/-- The next step of a bar, and the wait for the one after it; no wait once the bar is at rest. -/
def tick (bar : LoadingBar) (timing : BarTiming) : Option Duration × LoadingBar :=
  match bar.phase with
  | .hidden => (none, bar)
  | .fadingIn | .filling =>
    if bar.progress ≤ fullPercent then
      (some timing.tick, { bar with
        phase := .filling, width := bar.progress, progress := bar.progress + stepPercent })
    else (some timing.settle, { bar with phase := .settling })
  | .settling =>
    (some timing.fadeOut, { bar with phase := .fadingOut, animation := some fadeOutName })
  | .fadingOut => (none, rest)

/-- How many steps a bar needs until it is at rest, the last one included. -/
def ticksLeft (bar : LoadingBar) : Nat :=
  match bar.phase with
  | .hidden => 1
  | .fadingIn | .filling =>
    (if bar.progress ≤ fullPercent then (fullPercent - bar.progress) / stepPercent + 1 else 0) + 3
  | .settling => 2
  | .fadingOut => 1

def toJson (bar : LoadingBar) : Json :=
  .object [
    ("phase", bar.phase.toJson),
    ("visible", .bool bar.visible),
    ("animation", (bar.animation.map Json.string).getD .null),
    ("progress", .integer bar.progress),
    ("width_percent", .integer bar.width)]

/-- A bar while it is being read.  A missing animation is no animation. -/
structure Draft where
  phase : Option BarPhase := none
  visible : Option Bool := none
  animation : Option (Option String) := none
  progress : Option Nat := none
  width : Option Nat := none

def reader : Reader LoadingBar := Reader.record {
  title := "struct LoadingBar"
  slots := [
    .of "phase" BarPhase.reader Draft.phase (fun v s => { s with phase := some v }),
    .of "visible" .bool Draft.visible (fun v s => { s with visible := some v }),
    .of "animation" (.optional .string) Draft.animation (fun v s => { s with animation := some v }),
    .of "progress" .word32 Draft.progress (fun v s => { s with progress := some v }),
    .of "width_percent" .word32 Draft.width (fun v s => { s with width := some v })]
  start := ({} : Draft)
  finish := fun s => do
    return ⟨← Reader.require "phase" s.phase, ← Reader.require "visible" s.visible,
      s.animation.getD none, ← Reader.require "progress" s.progress,
      ← Reader.require "width_percent" s.width⟩ }

end LoadingBar

end Sparkboard
