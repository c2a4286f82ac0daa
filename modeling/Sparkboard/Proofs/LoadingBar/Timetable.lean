import Mathlib.Tactic.IntervalCases
import Sparkboard.LoadingBar
/-!
# The timetable of a loading bar

A bar goes through fourteen stages: it fades in, fills through eleven widths, settles and fades out.
`stage` lists them, a step of the bar leads from each to the next (`tick_stage`), and `begins` says
how long after the start of the bar each of them begins.  So what a bar shows is told by the time
since its start alone: `barAt` is the timetable, and `barAt_eq_stage` says that it has each stage
from the moment when it begins to the moment when the next one does.
-/

namespace Sparkboard

namespace LoadingBar

/-- The stages of a bar.  From the last one a step leads to rest. -/
def stage (k : Nat) : LoadingBar :=
  if k = 0 then started
  else if k ≤ 11 then ⟨.filling, true, some fadeInName, 10 * k, 10 * (k - 1)⟩
  else if k = 12 then ⟨.settling, true, some fadeInName, 110, 100⟩
  else ⟨.fadingOut, true, some fadeOutName, 110, 100⟩

/-- How many steps a bar still needs until it is at rest, by what it is doing. -/
def stepsLeft (bar : LoadingBar) : Nat :=
  match bar.phase with
  | .hidden => 0
  | .fadingIn => 14
  | .filling => (110 - bar.progress) / 10 + 3
  | .settling => 2
  | .fadingOut => 1

/-- How long after its next step a bar makes its last one, in nanoseconds. -/
def timeLeft (bar : LoadingBar) (timing : BarTiming) : Nat :=
  match bar.phase with
  | .hidden | .fadingOut => 0
  | .fadingIn => 11 * timing.tick.nanos + timing.settle.nanos + timing.fadeOut.nanos
  | .filling =>
    (110 - bar.progress) / 10 * timing.tick.nanos + timing.settle.nanos + timing.fadeOut.nanos
  | .settling => timing.fadeOut.nanos

end LoadingBar

namespace BarTiming

open LoadingBar (stage)

variable {timing : BarTiming} {k elapsed : Nat}

def stay (timing : BarTiming) (k : Nat) : Duration :=
  if k = 0 then timing.fadeIn
  else if k ≤ 11 then timing.tick
  else if k = 12 then timing.settle
  else timing.fadeOut

/-- How long after the start of a bar a stage begins, in nanoseconds. -/
def begins (timing : BarTiming) : Nat → Nat
  | 0 => 0
  | k + 1 => timing.begins k + (timing.stay k).nanos

/-- What a bar shows so many nanoseconds after its start: `none` once it is at rest again. -/
def barAt (timing : BarTiming) (elapsed : Nat) : Option LoadingBar :=
  let filling := timing.fadeIn.nanos
  let settling := filling + 11 * timing.tick.nanos
  let fadingOut := settling + timing.settle.nanos
  let ended := fadingOut + timing.fadeOut.nanos
  if elapsed < filling then some ⟨.fadingIn, true, some LoadingBar.fadeInName, 0, 0⟩
  else if elapsed < settling then
    let width := 10 * ((elapsed - filling) / timing.tick.nanos)
    some ⟨.filling, true, some LoadingBar.fadeInName, width + 10, width⟩
  else if elapsed < fadingOut then some ⟨.settling, true, some LoadingBar.fadeInName, 110, 100⟩
  else if elapsed < ended then some ⟨.fadingOut, true, some LoadingBar.fadeOutName, 110, 100⟩
  else none

/-! ## Steps -/

/-- A step leads to the next stage, and the wait after it is as long as that stage. -/
theorem tick_stage (timing : BarTiming) (hk : k < 13) :
    (stage k).tick timing = (some (timing.stay (k + 1)), stage (k + 1)) := by
  interval_cases k <;> rfl

theorem tick_last_stage (timing : BarTiming) :
    (stage 13).tick timing = (none, LoadingBar.rest) := rfl

/-- If a bar goes on after a step, it was not at its last stage, and it goes on with the next. -/
theorem tick_stage_eq_some {delay : Duration} {next : LoadingBar} (hk : k < 14)
    (h : (stage k).tick timing = (some delay, next)) :
    k < 13 ∧ delay = timing.stay (k + 1) ∧ next = stage (k + 1) := by
  have hk13 : k < 13 := by
    refine Nat.lt_of_le_of_ne (Nat.le_of_lt_succ hk) ?_
    rintro rfl
    rw [tick_last_stage] at h
    cases h
  rw [tick_stage timing hk13] at h
  cases h
  exact ⟨hk13, rfl, rfl⟩

/-- A step after which a bar is at rest is its last. -/
theorem tick_stage_eq_none {next : LoadingBar} (hk : k < 14)
    (h : (stage k).tick timing = (none, next)) : k = 13 := by
  refine Nat.le_antisymm (Nat.le_of_lt_succ hk) (Nat.not_lt.1 fun hk13 => ?_)
  rw [tick_stage timing hk13] at h
  cases h

theorem stepsLeft_stage (hk : k < 14) : (stage k).stepsLeft = 14 - k := by
  interval_cases k <;> rfl

/-! ## Times -/

/-- The bar fills at an even pace, from the time when it has faded in. -/
theorem begins_filling (timing : BarTiming) (hk : k ≤ 11) :
    timing.begins (k + 1) = timing.fadeIn.nanos + k * timing.tick.nanos := by
  induction k with
  | zero =>
    rw [begins, begins, Nat.zero_add, Nat.zero_mul]
    rfl
  | succ k ih =>
    have hstay : timing.stay (k + 1) = timing.tick := by
      rw [stay, if_neg (Nat.succ_ne_zero k), if_pos hk]
    rw [begins, ih (by omega), hstay, Nat.succ_mul, Nat.add_assoc]

theorem begins_fadingOut (timing : BarTiming) :
    timing.begins 13 =
      timing.fadeIn.nanos + 11 * timing.tick.nanos + timing.settle.nanos := by
  rw [begins, begins_filling timing (Nat.le_refl 11)]
  rfl

theorem begins_rest (timing : BarTiming) :
    timing.begins 14 = timing.fadeIn.nanos + 11 * timing.tick.nanos + timing.settle.nanos +
      timing.fadeOut.nanos := by
  rw [begins, begins_fadingOut]
  rfl

/-- From the next step on, the stages that follow fill the time until the bar is at rest. -/
theorem begins_add_timeLeft (timing : BarTiming) (hk : k < 14) :
    timing.begins (k + 1) + (stage k).timeLeft timing = timing.begins 14 := by
  have hrest := begins_rest timing
  by_cases hfill : k ≤ 11
  · have hbegins := begins_filling timing hfill
    have hleft : (stage k).timeLeft timing =
        (11 - k) * timing.tick.nanos + timing.settle.nanos + timing.fadeOut.nanos := by
      interval_cases k <;> rfl
    have hsum : k * timing.tick.nanos + (11 - k) * timing.tick.nanos =
        11 * timing.tick.nanos := by
      rw [← Nat.add_mul]
      congr 1
      omega
    omega
  · obtain rfl | rfl : k = 12 ∨ k = 13 := by omega
    · have hleft : (stage 12).timeLeft timing = timing.fadeOut.nanos := rfl
      rw [begins_fadingOut, hrest, hleft]
    · rfl

/-- Of the time that is left, a step uses up the wait for the next one. -/
theorem timeLeft_stage (timing : BarTiming) (hk : k < 13) :
    (stage k).timeLeft timing =
      (timing.stay (k + 1)).nanos + (stage (k + 1)).timeLeft timing := by
  have hthis := begins_add_timeLeft timing (show k < 14 by omega)
  have hnext := begins_add_timeLeft timing (show k + 1 < 14 by omega)
  have hstay : timing.begins (k + 1 + 1) =
      timing.begins (k + 1) + (timing.stay (k + 1)).nanos := rfl
  omega

/-! ## The timetable -/

/-- While a stage lasts, it is what the timetable says. -/
theorem barAt_eq_stage (hk : k < 14) (hb : timing.begins k ≤ elapsed)
    (he : elapsed < timing.begins (k + 1)) : timing.barAt elapsed = some (stage k) := by
  have hsettling : timing.begins 12 = timing.fadeIn.nanos + 11 * timing.tick.nanos :=
    begins_filling timing (Nat.le_refl 11)
  unfold barAt
  dsimp only
  obtain rfl | hfill | rfl | rfl : k = 0 ∨ (1 ≤ k ∧ k ≤ 11) ∨ k = 12 ∨ k = 13 := by omega
  · have hfadeIn := begins_filling timing (Nat.zero_le 11)
    rw [if_pos (by omega)]
    rfl
  · obtain ⟨j, rfl⟩ : ∃ j, k = j + 1 := ⟨k - 1, by omega⟩
    have hthis := begins_filling timing (show j ≤ 11 by omega)
    have hnext := begins_filling timing (show j + 1 ≤ 11 by omega)
    have hlast : (j + 1) * timing.tick.nanos ≤ 11 * timing.tick.nanos :=
      Nat.mul_le_mul_right _ (by omega)
    have hwidth : (elapsed - timing.fadeIn.nanos) / timing.tick.nanos = j :=
      Nat.div_eq_of_lt_le (by omega) (by omega)
    rw [if_neg (by omega), if_pos (by omega), hwidth]
    unfold stage
    rw [if_neg (Nat.succ_ne_zero j), if_pos (by omega)]
    rfl
  · rw [begins_fadingOut] at he
    rw [if_neg (by omega), if_neg (by omega), if_pos (by omega)]
    rfl
  · rw [begins_rest] at he
    rw [begins_fadingOut] at hb
    rw [if_neg (by omega), if_neg (by omega), if_neg (by omega), if_pos (by omega)]
    rfl

theorem barAt_eq_none (he : timing.begins 14 ≤ elapsed) : timing.barAt elapsed = none := by
  rw [begins_rest] at he
  unfold barAt
  dsimp only
  rw [if_neg (by omega), if_neg (by omega), if_neg (by omega), if_neg (by omega)]

end BarTiming

end Sparkboard
