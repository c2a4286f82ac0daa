import Sparkboard.Chart.Animator
import Sparkboard.LoadingBar
/-!
# Configuration

The animation and the delays of a dashboard.  Every setting has a default, so a file names only what
it changes; a name that is no setting is an error.
-/

namespace Sparkboard

open Json (Reader)

/-- The settings of a dashboard, delays in milliseconds. -/
structure Config where
  animationName : String := "loadChart"
  animationDurationMs : UInt64 := 1000
  animationClearDelayMs : UInt64 := 1200
  refreshDelayMs : UInt64 := 1500
  loaderAutoIdleMs : UInt64 := 1000
  loadingFadeInMs : UInt64 := 800
  loadingTickMs : UInt64 := 85
  loadingSettleMs : UInt64 := 500
  loadingFadeOutMs : UInt64 := 1000
  deriving DecidableEq, Repr

namespace Config

def default : Config := {}

instance : Inhabited Config := ⟨default⟩

def animator (c : Config) : Animator where
  name := c.animationName
  duration := .ofMillis c.animationDurationMs
  clearAfter := .ofMillis c.animationClearDelayMs

/-- How long after the charts are set up one of them is drawn again. -/
def refreshDelay (c : Config) : Duration := .ofMillis c.refreshDelayMs

/-- How long a successful loader stays. -/
def loaderAutoIdle (c : Config) : Duration := .ofMillis c.loaderAutoIdleMs

def barTiming (c : Config) : BarTiming where
  fadeIn := .ofMillis c.loadingFadeInMs
  tick := .ofMillis c.loadingTickMs
  settle := .ofMillis c.loadingSettleMs
  fadeOut := .ofMillis c.loadingFadeOutMs

def wordJson (w : UInt64) : Json := .integer w.toNat

def wordReader : Reader UInt64 := fun source node =>
  (Reader.word64 source node).map UInt64.ofNat

def toJson (c : Config) : Json :=
  .object [
    ("animation_name", .string c.animationName),
    ("animation_duration_ms", wordJson c.animationDurationMs),
    ("animation_clear_delay_ms", wordJson c.animationClearDelayMs),
    ("refresh_delay_ms", wordJson c.refreshDelayMs),
    ("loader_auto_idle_ms", wordJson c.loaderAutoIdleMs),
    ("loading_fade_in_ms", wordJson c.loadingFadeInMs),
    ("loading_tick_ms", wordJson c.loadingTickMs),
    ("loading_settle_ms", wordJson c.loadingSettleMs),
    ("loading_fade_out_ms", wordJson c.loadingFadeOutMs)]

/-- The settings that a text has named so far. -/
structure Draft where
  animationName : Option String := none
  animationDurationMs : Option UInt64 := none
  animationClearDelayMs : Option UInt64 := none
  refreshDelayMs : Option UInt64 := none
  loaderAutoIdleMs : Option UInt64 := none
  loadingFadeInMs : Option UInt64 := none
  loadingTickMs : Option UInt64 := none
  loadingSettleMs : Option UInt64 := none
  loadingFadeOutMs : Option UInt64 := none

/-- Fills what was not named from the defaults. -/
def Draft.complete (d : Draft) : Config where
  animationName := d.animationName.getD default.animationName
  animationDurationMs := d.animationDurationMs.getD default.animationDurationMs
  animationClearDelayMs := d.animationClearDelayMs.getD default.animationClearDelayMs
  refreshDelayMs := d.refreshDelayMs.getD default.refreshDelayMs
  loaderAutoIdleMs := d.loaderAutoIdleMs.getD default.loaderAutoIdleMs
  loadingFadeInMs := d.loadingFadeInMs.getD default.loadingFadeInMs
  loadingTickMs := d.loadingTickMs.getD default.loadingTickMs
  loadingSettleMs := d.loadingSettleMs.getD default.loadingSettleMs
  loadingFadeOutMs := d.loadingFadeOutMs.getD default.loadingFadeOutMs

/-- The settings by name.  None of them has to be named, and nothing else may be. -/
def shape : Reader.Shape Draft Config where
  title := "struct DashboardConfig"
  slots := [
    .of "animation_name" .string Draft.animationName
      (fun v s => { s with animationName := some v }),
    .of "animation_duration_ms" wordReader Draft.animationDurationMs
      (fun v s => { s with animationDurationMs := some v }),
    .of "animation_clear_delay_ms" wordReader Draft.animationClearDelayMs
      (fun v s => { s with animationClearDelayMs := some v }),
    .of "refresh_delay_ms" wordReader Draft.refreshDelayMs
      (fun v s => { s with refreshDelayMs := some v }),
    .of "loader_auto_idle_ms" wordReader Draft.loaderAutoIdleMs
      (fun v s => { s with loaderAutoIdleMs := some v }),
    .of "loading_fade_in_ms" wordReader Draft.loadingFadeInMs
      (fun v s => { s with loadingFadeInMs := some v }),
    .of "loading_tick_ms" wordReader Draft.loadingTickMs
      (fun v s => { s with loadingTickMs := some v }),
    .of "loading_settle_ms" wordReader Draft.loadingSettleMs
      (fun v s => { s with loadingSettleMs := some v }),
    .of "loading_fade_out_ms" wordReader Draft.loadingFadeOutMs
      (fun v s => { s with loadingFadeOutMs := some v })]
  start := ({} : Draft)
  finish := fun s => .ok s.complete
  mayBeShort := true
  refusesOthers := true

def reader : Reader Config := Reader.record shape

end Config

end Sparkboard
