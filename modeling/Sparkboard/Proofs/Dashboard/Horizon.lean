import Sparkboard.Proofs.Dashboard.Batch
import Sparkboard.Proofs.Dashboard.Idle
import Sparkboard.Proofs.Dashboard.Slicing
/-!
# The horizon

Whatever is begun is over within the horizon of the configuration: the time of a loading bar, of the
second draw of a batch with its clear, or of the loader, whichever is longest.  A task is `Near` if
it is due by then with all that it brings.  Every task that is scheduled is near (`Scheduled.near`)
and stays so, and the steps of a bar are by its timetable (`Run.tick_ends`).  So the clock does not
overflow as long as it is a horizon away from the longest duration (`no_overflow_within_horizon`).
-/

namespace Sparkboard

/-- The longest duration: 2 ^ 64 - 1 seconds and 999999999 nanoseconds. -/
def Duration.longest : Duration := ⟨(Nat.pow 2 64 - 1) * 1000000000 + 999999999, by decide⟩

/-- How long it takes at most, in nanoseconds, until what is begun is over. -/
def Config.horizon (c : Config) : Nat :=
  let bar := c.barTiming.fadeIn.nanos + 11 * c.barTiming.tick.nanos + c.barTiming.settle.nanos +
    c.barTiming.fadeOut.nanos
  let redraw := c.refreshDelay.nanos + c.animator.clearAfter.nanos
  max (max bar redraw) c.loaderAutoIdle.nanos

namespace Config

variable (c : Config)

theorem begins_le_horizon : c.barTiming.begins 14 ≤ c.horizon := by
  rw [BarTiming.begins_rest]
  unfold horizon
  dsimp only
  omega

theorem redraw_le_horizon :
    c.refreshDelay.nanos + c.animator.clearAfter.nanos ≤ c.horizon := by
  unfold horizon
  dsimp only
  omega

theorem refreshDelay_le_horizon : c.refreshDelay.nanos ≤ c.horizon :=
  Nat.le_trans (Nat.le_add_right ..) c.redraw_le_horizon

theorem clearAfter_le_horizon : c.animator.clearAfter.nanos ≤ c.horizon :=
  Nat.le_trans (Nat.le_add_left ..) c.redraw_le_horizon

theorem loaderAutoIdle_le_horizon : c.loaderAutoIdle.nanos ≤ c.horizon := by
  unfold horizon
  dsimp only
  omega

/-- Delays of milliseconds that fit in a word leave the horizon far below the longest duration. -/
theorem horizon_le_longest : c.horizon ≤ Duration.longest.nanos := by
  have hlt (ms : UInt64) : (Duration.ofMillis ms).nanos < 2 ^ 64 * 1000000 := by
    have hms := ms.toNat_lt
    rw [Duration.nanos_ofMillis]
    omega
  have hclear := hlt c.animationClearDelayMs
  have hrefresh := hlt c.refreshDelayMs
  have hidle := hlt c.loaderAutoIdleMs
  have hfadeIn := hlt c.loadingFadeInMs
  have htick := hlt c.loadingTickMs
  have hsettle := hlt c.loadingSettleMs
  have hfadeOut := hlt c.loadingFadeOutMs
  unfold horizon barTiming animator refreshDelay loaderAutoIdle Duration.longest
  simp only [Nat.pow_eq]
  omega

theorem fadeIn_le_horizon : c.barTiming.fadeIn.nanos ≤ c.horizon := by
  have hbar := c.begins_le_horizon
  rw [BarTiming.begins_rest] at hbar
  omega

end Config

namespace Dashboard

open LoadingBar (stage)

variable {config : Config} {h : History} {d d₁ d' : Dashboard} {deed : Deed} {e : Entry Task}
  {entries : List (Entry Task)} {ops : List Operation} {answers : List Answer} {delay : Duration}

/-! ## Tasks that are near -/

/-- How long after a task what it brings is due, the steps of a bar apart. -/
def trail (d : Dashboard) : Task → Nat
  | .redraw .. => d.config.animator.clearAfter.nanos
  | .clearAnimation .. | .autoIdle _ | .loadingTick _ => 0

/-- Is a task due within the horizon, with what it brings? -/
def Near (d : Dashboard) (e : Entry Task) : Prop :=
  e.due.nanos + d.trail e.task ≤ d.now.nanos + d.config.horizon

/-- A task stays near while the clock moves on. -/
theorem Near.mono (hn : d.Near e) (hconfig : d'.config = d.config) (hnow : d.now ≤ d'.now) :
    d'.Near e := by
  unfold Near trail at *
  rw [Duration.le_def] at hnow
  rw [hconfig]
  omega

/-- A task is near if its delay is no longer than the horizon, with what it brings. -/
theorem near_of_add? {due : Duration} {order : Nat} {task : Task}
    (hd : d.now.add? delay = some due) (hl : delay.nanos + d.trail task ≤ d.config.horizon) :
    d.Near ⟨due, order, task⟩ := by
  unfold Near
  dsimp only
  rw [Duration.add?_eq_some_iff.1 hd]
  omega

theorem Scheduled.near (h : d.Scheduled deed e) (ht : ∀ session, e.task ≠ .loadingTick session) :
    d.Near e := by
  cases h with
  | clear hd =>
    refine near_of_add? hd ?_
    rw [trail, Nat.add_zero]
    exact d.config.clearAfter_le_horizon
  | redraw hd => exact near_of_add? hd d.config.redraw_le_horizon
  | autoIdle hd =>
    refine near_of_add? hd ?_
    rw [trail, Nat.add_zero]
    exact d.config.loaderAutoIdle_le_horizon
  | @tick _ _ _ session => exact absurd rfl (ht session)

/-- In every run all tasks that wait are near, the steps of bars apart. -/
theorem Run.near (hr : Run (new config) h d) (he : e ∈ d.timeline.pending)
    (ht : ∀ session, e.task ≠ .loadingTick session) : d.Near e := by
  induction hr with
  | nil => cases he
  | snoc _ hs ih =>
    rcases hs.scheduled he with hold | hnew
    · exact (ih hold).mono hs.config_eq hs.moves.now_le
    · exact hnew.near ht

/-! ## The end of what waits -/

theorem span_burden_le (d : Dashboard) {task : Task} (ht : ∀ session, task ≠ .loadingTick session) :
    (d.burden task).span ≤ d.trail task := by
  cases task with
  | clearAnimation | autoIdle => exact Nat.le_refl _
  | redraw key labels values =>
    rw [burden_redraw]
    split
    · exact Nat.le_refl _
    · exact Nat.zero_le _
  | loadingTick session => exact absurd rfl (ht session)

theorem Run.tick_ends (hr : Run (new config) h d) {session : Nat} (he : e ∈ d.timeline.pending)
    (ht : e.task = .loadingTick session) :
    e.due.nanos + (d.burden e.task).span ≤ d.now.nanos + d.config.horizon := by
  have hmem : e.due ∈ d.timeline.dues (.loadingTick session) :=
    Timeline.mem_dues.2 ⟨e, he, ht, rfl⟩
  rcases hr.bars_on_time session with hu | ⟨start, ho⟩
  · rw [hu.ticks] at hmem
    cases hmem
  · cases ho with
    | @running k due _ hk hbar hticks hdue hpast =>
      rw [hticks, List.mem_singleton] at hmem
      have hleft := d.config.barTiming.begins_add_timeLeft hk
      have hrest := d.config.begins_le_horizon
      rw [ht, burden_loadingTick hbar, hmem]
      dsimp only
      omega
    | atRest _ _ hticks =>
      rw [hticks] at hmem
      cases hmem

theorem Run.ends_within (hr : Run (new config) h d) :
    ∀ e ∈ d.timeline.pending,
      e.due.nanos + (d.burden e.task).span ≤ d.now.nanos + d.config.horizon := by
  intro e he
  by_cases htick : ∃ session, e.task = .loadingTick session
  · obtain ⟨session, ht⟩ := htick
    exact hr.tick_ends he ht
  · have ht : ∀ session, e.task ≠ .loadingTick session := not_exists.1 htick
    have hnear := hr.near he ht
    have hspan := d.span_burden_le ht
    unfold Near at hnear
    omega

/-- When all that waits is run, the clock does not pass its end. -/
theorem Drains.now_le_end {limit : Nat} (hd : Drains Timeline.pop? d entries d')
    (hr : Run (new config) h d) (hnow : d.now.nanos ≤ limit)
    (hends : ∀ e ∈ d.timeline.pending, e.due.nanos + (d.burden e.task).span ≤ limit) :
    d'.now.nanos ≤ limit := by
  induction hd generalizing h with
  | done => exact hnow
  | @run _ _ _ entry _ _ hp hrun _ ih =>
    have hend := hends entry (Timeline.mem_of_pop? hp)
    have hdue : entry.due.nanos ≤ limit := by omega
    obtain ⟨_, hr'⟩ := hr.fires hp hrun
    refine ih hr' ?_ (((hr.discharges hp hrun).forall_end_iff (P := (· ≤ limit)) hp hdue).1 hends)
    rw [now_run hp hrun, Duration.nanos_latest]
    omega

/-- Time can pass if all that waits can be run. -/
theorem Run.exists_advance_of_fits (hr : Run (new config) h d) (hf : d.Fits) {dt limit : Duration}
    (hl : d.now.add? dt = some limit) :
    ∃ entries d', (d.advance dt).result = .ok (entries, d') := by
  obtain ⟨entries, d₁, hall⟩ := hr.exists_drains hf
  have hfirst : d₁.now ≤ d₁.now.latest limit := by
    rw [Duration.le_def, Duration.nanos_latest]
    exact Nat.le_max_left ..
  have hsecond : limit ≤ d₁.now.latest limit := by
    rw [Duration.le_def, Duration.nanos_latest]
    exact Nat.le_max_right ..
  -- of all that waits, only what is due in time is run
  obtain ⟨first, d₂, rest, hdue, -, -⟩ := (hall.popDue hfirst).cut hsecond
  exact ⟨first, _, result_advance_eq_ok.2 ⟨limit, d₂, hl, hdue, rfl⟩⟩

/-! ## Room for a horizon -/

section

variable (hroom : d.now.nanos + d.config.horizon ≤ Duration.longest.nanos)

include hroom

theorem exists_due (hl : delay.nanos ≤ d.config.horizon) : ∃ due, d.now.add? delay = some due := by
  apply Duration.exists_add?
  have hlongest : Duration.longest.nanos < Duration.bound := Duration.longest.nanos_lt
  omega

theorem exists_draw (labels : List String) (values : List Float) (key : String) :
    ∃ outcome d', (d.draw labels values key).result = .ok (outcome, d') := by
  cases hc : d.checkDraw labels values key with
  | error e => exact ⟨_, _, result_draw_of_error hc⟩
  | ok found =>
    obtain ⟨due, hdue⟩ := exists_due hroom d.config.clearAfter_le_horizon
    exact ⟨_, _, (result_draw_of_ok hc).2 ⟨due, hdue, rfl, rfl⟩⟩

theorem exists_initCharts (data : ChartData) :
    ∃ report d', (d.initCharts data).result = .ok (report, d') := by
  exact exists_initCharts_iff.2 ⟨exists_due hroom d.config.refreshDelay_le_horizon,
    fun x _ => exists_draw hroom data.labels x.2 x.1⟩

theorem exists_loaderFinishSuccess : ∃ d', d.loaderFinishSuccess.result = .ok d' := by
  obtain ⟨due, hdue⟩ := exists_due hroom d.config.loaderAutoIdle_le_horizon
  exact ⟨_, result_loaderFinishSuccess.2 ⟨due, hdue, rfl⟩⟩

theorem exists_startLoadingBar : ∃ session d', d.startLoadingBar.result = .ok (session, d') := by
  obtain ⟨due, hdue⟩ := exists_due hroom d.config.fadeIn_le_horizon
  exact ⟨_, _, Work.result_bind_eq_ok.2 ⟨_, result_after_eq_ok.2 ⟨due, hdue, rfl⟩, rfl⟩⟩

theorem Run.fits (hr : Run (new config) h d) : d.Fits := by
  intro e he
  have hend := hr.ends_within e he
  have hlongest : Duration.longest.nanos < Duration.bound := Duration.longest.nanos_lt
  omega

theorem Run.exists_drains_of_room (hr : Run (new config) h d) :
    ∃ entries d', Drains Timeline.pop? d entries d' :=
  hr.exists_drains (hr.fits hroom)

/-- Time can pass up to the longest duration. -/
theorem Run.exists_advance (hr : Run (new config) h d) {dt limit : Duration}
    (hl : d.now.add? dt = some limit) :
    ∃ entries d', (d.advance dt).result = .ok (entries, d') :=
  hr.exists_advance_of_fits (hr.fits hroom) hl

/-- No operation overflows the clock, unless it lets time pass. -/
theorem Run.exists_perform (hr : Run (new config) h d) {op : Operation}
    (hop : ∀ dt, op ≠ .advance dt) : ∃ answer d', (d.perform op).result = .ok (answer, d') := by
  cases op with
  | mount | unmount | loaderStart | loaderStep | loaderHide => exact ⟨_, _, rfl⟩
  | draw labels values key =>
    obtain ⟨outcome, d', hdraw⟩ := exists_draw hroom labels values key
    exact ⟨_, d', Work.result_bind_eq_ok.2 ⟨_, hdraw, rfl⟩⟩
  | initCharts data =>
    obtain ⟨report, d', hinit⟩ := exists_initCharts hroom data
    exact ⟨_, d', Work.result_bind_eq_ok.2 ⟨_, hinit, rfl⟩⟩
  | loaderFinishSuccess =>
    obtain ⟨d', hfinish⟩ := exists_loaderFinishSuccess hroom
    exact ⟨_, d', Work.result_bind_eq_ok.2 ⟨_, hfinish, rfl⟩⟩
  | startLoadingBar =>
    obtain ⟨session, d', hstart⟩ := exists_startLoadingBar hroom
    exact ⟨_, d', Work.result_bind_eq_ok.2 ⟨_, hstart, rfl⟩⟩
  | advance dt => exact absurd rfl (hop dt)
  | runUntilIdle =>
    obtain ⟨entries, d', hall⟩ := hr.exists_drains_of_room hroom
    exact ⟨_, d', Work.result_bind_eq_ok.2 ⟨_, result_runUntilIdle_eq_ok.2 hall, rfl⟩⟩

end

/-- While the clock is a horizon away from the longest duration, no operation overflows it, and
running until idle moves it by no more than the horizon; and time can pass as long as the clock
stays so far away. -/
theorem no_overflow_within_horizon
    (h : ((new config).performAll ops).result = .ok (answers, d)) :
    (d.now.nanos + config.horizon ≤ Duration.longest.nanos →
      (∀ op, (∀ dt, op ≠ .advance dt) →
        ∃ answer d', (d.perform op).result = .ok (answer, d')) ∧
      ∀ entries d', d.runUntilIdle.result = .ok (entries, d') →
        d'.now.nanos ≤ d.now.nanos + config.horizon) ∧
    ∀ dt, d.now.nanos + dt.nanos + config.horizon ≤ Duration.longest.nanos →
      ∃ answer d', (d.perform (.advance dt)).result = .ok (answer, d') := by
  have hr := run_of_performAll h
  have hconfig := hr.config_eq
  rw [← hconfig]
  refine ⟨?_, ?_⟩
  · intro hroom
    refine ⟨fun op hop => hr.exists_perform hroom hop, ?_⟩
    intro entries d' hi
    have hd := result_runUntilIdle_eq_ok.1 hi
    exact hd.now_le_end hr (Nat.le_add_right ..) hr.ends_within
  · intro dt hroom
    have hlongest : Duration.longest.nanos < Duration.bound := Duration.longest.nanos_lt
    obtain ⟨limit, hl⟩ : ∃ limit, d.now.add? dt = some limit := by
      apply Duration.exists_add?
      omega
    obtain ⟨entries, d', hadvance⟩ := hr.exists_advance (by omega) hl
    exact ⟨_, d', Work.result_bind_eq_ok.2 ⟨_, hadvance, rfl⟩⟩

/-- A batch, a bar and a loader that are begun as late as the horizon allows. -/
def lastMinute : List Operation := [
  .advance ⟨Duration.longest.nanos - 3235000000, by decide⟩,
  .mount employeeKey .fresh,
  .initCharts ⟨["1", "2", "3", "4"], [1.0, 2.0, 3.0, 4.0], [], []⟩,
  .startLoadingBar,
  .loaderFinishSuccess]

/-- Another bar can be started, and all that waits is run by the longest duration. -/
theorem no_overflow_lastMinute :
    ∃ answers d, ((new .default).performAll lastMinute).result = .ok (answers, d) ∧
      d.now.nanos + Config.default.horizon = Duration.longest.nanos ∧
      (∃ answer d', (d.perform .startLoadingBar).result = .ok (answer, d')) ∧
      (∃ entries d', d.runUntilIdle.result = .ok (entries, d') ∧
        d'.now.nanos ≤ Duration.longest.nanos) ∧
      ∃ answer d', (d.perform (.advance .zero)).result = .ok (answer, d') := by
  obtain ⟨answers, d, hrun, hnow⟩ : ∃ answers d,
      ((new .default).performAll lastMinute).result = .ok (answers, d) ∧
        d.now.nanos + Config.default.horizon = Duration.longest.nanos := ⟨_, _, rfl, rfl⟩
  obtain ⟨hroom, hadvance⟩ := no_overflow_within_horizon hrun
  obtain ⟨hperform, hend⟩ := hroom (Nat.le_of_eq hnow)
  obtain ⟨_, d', hidle⟩ := hperform .runUntilIdle nofun
  obtain ⟨⟨entries, _⟩, hi, he⟩ := Work.result_bind_eq_ok.1 hidle
  cases he
  refine ⟨answers, d, hrun, hnow, hperform .startLoadingBar nofun, ⟨entries, d', hi, ?_⟩,
    hadvance .zero (Nat.le_of_eq hnow)⟩
  rw [← hnow]
  exact hend entries d' hi

end Dashboard

end Sparkboard
