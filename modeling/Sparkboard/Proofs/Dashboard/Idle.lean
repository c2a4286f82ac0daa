import Sparkboard.Proofs.Dashboard.Bars
import Sparkboard.Proofs.Dashboard.Staleness
/-!
# Running until idle

What waits on the timeline tells what running until idle will do.  The burden of a task says how
many tasks are run on account of it, and how long after it the last of these is due.  Running a task
takes exactly one off its burden and leaves the burdens of the other tasks alone (`Discharges`).  So
running until idle comes to an end unless the last of the tasks would be due past the longest
duration (`Run.exists_drains`), and it runs as many tasks as the burdens add up to
(`runUntilIdle_runs_outstanding`).
-/

namespace Sparkboard

/-- What running a task brings with it. -/
structure Burden where
  /-- How many tasks are run on account of the task, itself included. -/
  tasks : Nat
  /-- How long after the task the last of them is due, in nanoseconds. -/
  span : Nat

theorem Duration.exists_add? {a b : Duration} (h : a.nanos + b.nanos < bound) :
    ∃ c, a.add? b = some c :=
  ⟨⟨a.nanos + b.nanos, h⟩, add?_eq_some_iff.2 rfl⟩

namespace Dashboard

open LoadingBar (stage)

variable {config : Config} {h : History} {d d₁ d' : Dashboard} {task : Task} {entry : Entry Task}
  {timeline : Timeline Task} {entries : List (Entry Task)} {ops : List Operation}
  {answers : List Answer}

/-- The burden of a task.  A redraw that comes off is followed by a clear, and a step of a bar by
the steps that the bar still needs. -/
def burden (d : Dashboard) : Task → Burden
  | .clearAnimation .. | .autoIdle _ => ⟨1, 0⟩
  | .redraw key labels _ =>
    if labels.length = Slots.count ∧ (d.target? key).isSome then
      ⟨2, d.config.animator.clearAfter.nanos⟩
    else ⟨1, 0⟩
  | .loadingTick session =>
    match d.sessions.get? session with
    | some bar => ⟨bar.stepsLeft, bar.timeLeft d.config.barTiming⟩
    | none => ⟨1, 0⟩

/-- How many tasks are run on account of all that waits. -/
def outstanding (d : Dashboard) : Nat :=
  (d.timeline.pending.map fun e => (d.burden e.task).tasks).sum

/-- Is the last task that is run on account of anything that waits due before the longest duration
is over? -/
def Fits (d : Dashboard) : Prop :=
  ∀ e ∈ d.timeline.pending, e.due.nanos + (d.burden e.task).span < Duration.bound

instance (d : Dashboard) : Decidable d.Fits :=
  inferInstanceAs (Decidable (∀ e ∈ d.timeline.pending,
    e.due.nanos + (d.burden e.task).span < Duration.bound))

/-! ## Burdens -/

theorem burden_redraw (d : Dashboard) (key : String) (labels : List String) (values : List Float) :
    d.burden (.redraw key labels values) =
      if labels.length = Slots.count ∧ (d.target? key).isSome then
        ⟨2, d.config.animator.clearAfter.nanos⟩
      else ⟨1, 0⟩ := rfl

theorem burden_of_refused {key : String} {labels : List String} {e : ChartError}
    (hc : d.checkDraw labels refreshSample key = .error e) :
    d.burden (.redraw key labels refreshSample) = ⟨1, 0⟩ := by
  have hnot := (checkDraw_refreshSample d labels key).1 ⟨e, hc⟩
  rw [burden_redraw, if_neg hnot]

/-- A second draw that comes off is followed by its clear. -/
theorem burden_of_drawn {key : String} {labels : List String}
    {found : LabelSet × Series × ChartTarget}
    (hc : d.checkDraw labels refreshSample key = .ok found) :
    d.burden (.redraw key labels refreshSample) = ⟨2, d.config.animator.clearAfter.nanos⟩ := by
  have hcomes : labels.length = Slots.count ∧ (d.target? key).isSome := by
    refine Classical.not_not.1 fun hnot => ?_
    obtain ⟨e, he⟩ := (checkDraw_refreshSample d labels key).2 hnot
    rw [hc] at he
    cases he
  rw [burden_redraw, if_pos hcomes]

theorem burden_loadingTick {session : Nat} {bar : LoadingBar}
    (hb : d.sessions.get? session = some bar) :
    d.burden (.loadingTick session) = ⟨bar.stepsLeft, bar.timeLeft d.config.barTiming⟩ := by
  unfold burden
  dsimp only
  rw [hb]

/-- The burden of a task depends on which charts are mounted and on its own bar. -/
theorem burden_congr (hconfig : d'.config = d.config)
    (hmounted : ∀ key, (d'.target? key).isSome = (d.target? key).isSome)
    (hbar : ∀ session, task = .loadingTick session →
      d'.sessions.get? session = d.sessions.get? session) : d'.burden task = d.burden task := by
  cases task with
  | clearAnimation | autoIdle => rfl
  | redraw key labels values =>
    rw [burden_redraw, burden_redraw, hconfig, hmounted]
  | loadingTick session =>
    unfold burden
    dsimp only
    rw [hconfig, hbar session rfl]

/-- A chart that changes is still mounted. -/
theorem isSome_target?_insert {key : String} (hc : (d.target? key).isSome) (shown : ChartTarget)
    (k : String) : ((d.charts.insert key shown).get? k).isSome = (d.target? k).isSome := by
  rw [Table.get?_insert]
  by_cases hk : k = key
  · rw [if_pos hk, hk, hc]
    rfl
  · rw [if_neg hk]
    rfl

/-! ## One task -/

/-- What it does to the burdens that a task was run: it was the last on its own account, or it
scheduled the next one. -/
inductive Discharges (d : Dashboard) (entry : Entry Task) (timeline : Timeline Task)
    (d₁ : Dashboard) : Prop where
  | last (hburden : d.burden entry.task = ⟨1, 0⟩) (htimeline : d₁.timeline = timeline)
    (hothers : ∀ e ∈ timeline.pending, d₁.burden e.task = d.burden e.task)
  | more {due : Duration} {next : Task}
    (htasks : (d.burden entry.task).tasks = (d₁.burden next).tasks + 1)
    (hspan : entry.due.nanos + (d.burden entry.task).span = due.nanos + (d₁.burden next).span)
    (htimeline : d₁.timeline = timeline.push due next)
    (hothers : ∀ e ∈ timeline.pending, d₁.burden e.task = d.burden e.task)

section

variable (hr : Run (new config) h d) (hp : d.timeline.pop? = some (entry, timeline))

include hr hp

/-- A redraw that comes due is refused and brings nothing, or it comes off and brings a clear. -/
theorem Run.discharges_redraw {labels : List String} {values : List Float} {key : String}
    {outcome : Except ChartError Nat} (ht : entry.task = .redraw key labels values)
    (hdraw : { d with timeline }.Draws labels values key outcome d₁) :
    Discharges d entry timeline d₁ := by
  have hmem : entry ∈ d.timeline.pending := Timeline.mem_of_pop? hp
  obtain ⟨rfl, rfl⟩ := hr.redraw_scheduled hmem ht
  cases hdraw with
  | refused hc =>
    have hburden : d.burden (.redraw employeeKey labels refreshSample) = ⟨1, 0⟩ :=
      burden_of_refused hc
    exact .last (by rw [ht, hburden]) rfl fun e _ => rfl
  | came hc hdue =>
    have hburden : d.burden (.redraw employeeKey labels refreshSample) =
        ⟨2, d.config.animator.clearAfter.nanos⟩ := burden_of_drawn hc
    have hmounted : (d.target? employeeKey).isSome := Option.isSome_of_mem (get?_of_checkDraw hc)
    refine .more (by rw [ht, hburden]; rfl) ?_ rfl
      fun e _ => burden_congr rfl (isSome_target?_insert hmounted _) fun _ _ => rfl
    rw [ht, hburden, Duration.add?_eq_some_iff.1 hdue, ← hr.sound.now_pop hp]
    exact (Nat.add_zero _).symm

/-- A step of a bar brings the next one, unless it is the last. -/
theorem Run.discharges_tick {session : Nat} (ht : entry.task = .loadingTick session)
    (hran : Ran { d with timeline } (.loadingTick session) d₁) :
    Discharges d entry timeline d₁ := by
  obtain ⟨k, hk, hbar, hnone⟩ := hr.tick_due hp ht
  have hburden := burden_loadingTick hbar
  -- no other step of this bar waits
  have hne {e : Entry Task} (he : e ∈ timeline.pending) {other : Nat}
      (hother : e.task = .loadingTick other) : other ≠ session := by
    rintro rfl
    exact Timeline.dues_eq_nil_iff.1 hnone e he hother
  cases hran with
  | stale hs =>
    have hrest : d.sessions.get? session = none := hs
    rw [hrest] at hbar
    cases hbar
  | @tick _ bar next due delay hb htick hdue =>
    obtain rfl : stage k = bar := Option.some.inj (hbar.symm.trans hb)
    obtain ⟨hk13, rfl, rfl⟩ := BarTiming.tick_stage_eq_some hk htick
    have hnext : ({ d with
        timeline
        sessions := d.sessions.insert session (stage (k + 1)) }.push due
          (.loadingTick session)).burden (.loadingTick session) =
          ⟨(stage (k + 1)).stepsLeft, (stage (k + 1)).timeLeft d.config.barTiming⟩ := by
      refine burden_loadingTick ?_
      show (d.sessions.insert session _).get? session = _
      rw [Table.get?_insert, if_pos rfl]
    have htasks : (stage k).stepsLeft = (stage (k + 1)).stepsLeft + 1 := by
      rw [BarTiming.stepsLeft_stage hk, BarTiming.stepsLeft_stage (Nat.succ_lt_succ hk13)]
      omega
    have hspan : entry.due.nanos + (stage k).timeLeft d.config.barTiming =
        due.nanos + (stage (k + 1)).timeLeft d.config.barTiming := by
      have hleft := BarTiming.timeLeft_stage d.config.barTiming hk13
      have hdue' : due.nanos = timeline.now.nanos + (d.config.barTiming.stay (k + 1)).nanos :=
        Duration.add?_eq_some_iff.1 hdue
      have hnow : timeline.now = entry.due := hr.sound.now_pop hp
      rw [hnow] at hdue'
      omega
    rw [← ht] at hburden
    refine .more (by rw [hburden, hnext, htasks]) (by rw [hburden, hnext, hspan]) rfl
      fun e he => burden_congr rfl (fun _ => rfl) fun other hother => ?_
    show (d.sessions.insert session _).get? other = _
    rw [Table.get?_insert, if_neg (hne he hother)]
  | @lastTick _ bar next hb htick =>
    obtain rfl : stage k = bar := Option.some.inj (hbar.symm.trans hb)
    obtain rfl := BarTiming.tick_stage_eq_none hk htick
    refine .last (by rw [ht, hburden]; rfl) rfl fun e he =>
      burden_congr rfl (fun _ => rfl) fun other hother => ?_
    show (d.sessions.erase session).get? other = _
    rw [Table.get?_erase, if_neg (hne he hother)]

/-- Running a task in a reached state takes one off its burden. -/
theorem Run.discharges (hrun : ({ d with timeline }.run entry.task).result = .ok d₁) :
    Discharges d entry timeline d₁ := by
  have hran := ran_of_run hrun
  generalize ht : entry.task = task at hran
  cases task with
  | clearAnimation key generation =>
    have hburden : d.burden entry.task = ⟨1, 0⟩ := by
      rw [ht]
      rfl
    cases hran with
    | stale => exact .last hburden rfl fun e _ => rfl
    | clear hc =>
      have hsome : (d.target? key).isSome := Option.isSome_of_mem hc
      exact .last hburden rfl
        fun e _ => burden_congr rfl (isSome_target?_insert hsome _) fun _ _ => rfl
  | autoIdle generation =>
    have hburden : d.burden entry.task = ⟨1, 0⟩ := by
      rw [ht]
      rfl
    cases hran with
    | stale => exact .last hburden rfl fun e _ => rfl
    | autoIdle =>
      exact .last hburden rfl fun e _ => burden_congr rfl (fun _ => rfl) fun _ _ => rfl
  | redraw key labels values =>
    cases hran with
    | stale hs => exact hs.elim
    | redraw hdraw => exact hr.discharges_redraw hp ht hdraw
  | loadingTick session => exact hr.discharges_tick hp ht hran

/-- A task has a result unless what it schedules would be due past the longest duration. -/
theorem Run.exists_run (hf : entry.due.nanos + (d.burden entry.task).span < Duration.bound) :
    ∃ d₁, ({ d with timeline }.run entry.task).result = .ok d₁ := by
  by_cases hs : { d with timeline }.Stale entry.task
  · exact ⟨_, result_run_of_stale hs⟩
  have hmem : entry ∈ d.timeline.pending := Timeline.mem_of_pop? hp
  have hnow : timeline.now = entry.due := hr.sound.now_pop hp
  rw [← hnow] at hf
  cases ht : entry.task with
  | clearAnimation key generation =>
    rw [ht] at hs
    simp only [Stale, Classical.not_forall, Classical.not_not] at hs
    obtain ⟨target, hc, rfl⟩ := hs
    exact ⟨_, result_run_clearAnimation hc⟩
  | autoIdle generation =>
    rw [ht] at hs
    obtain rfl := Classical.not_not.1 hs
    exact ⟨_, result_run_autoIdle _⟩
  | redraw key labels values =>
    obtain ⟨rfl, rfl⟩ := hr.redraw_scheduled hmem ht
    cases hc : { d with timeline }.checkDraw labels refreshSample employeeKey with
    | error e => exact ⟨_, Work.result_bind_eq_ok.2 ⟨_, result_draw_of_error hc, rfl⟩⟩
    | ok found =>
      have hburden : d.burden (.redraw employeeKey labels refreshSample) =
          ⟨2, d.config.animator.clearAfter.nanos⟩ := burden_of_drawn hc
      rw [ht, hburden] at hf
      obtain ⟨due, hdue⟩ := Duration.exists_add? hf
      exact ⟨_, Work.result_bind_eq_ok.2
        ⟨_, (result_draw_of_ok hc).2 ⟨due, hdue, rfl, rfl⟩, rfl⟩⟩
  | loadingTick session =>
    obtain ⟨k, hk, hbar, -⟩ := hr.tick_due hp ht
    have hbar' : { d with timeline }.sessions.get? session = some (stage k) := hbar
    by_cases hk13 : k < 13
    · have hleft := BarTiming.timeLeft_stage d.config.barTiming hk13
      rw [ht, burden_loadingTick hbar] at hf
      obtain ⟨due, hdue⟩ : ∃ due,
          timeline.now.add? (d.config.barTiming.stay (k + 1)) = some due := by
        apply Duration.exists_add?
        dsimp only at hf
        omega
      exact ⟨_, (result_run_loadingTick hbar' (BarTiming.tick_stage _ hk13)).2 ⟨due, hdue, rfl⟩⟩
    · obtain rfl : k = 13 := by omega
      exact ⟨_, result_run_lastTick hbar' (BarTiming.tick_last_stage _)⟩

end

/-! ## All that waits -/

theorem Discharges.outstanding (h : Discharges d entry timeline d₁)
    (hp : d.timeline.pop? = some (entry, timeline)) : d.outstanding = d₁.outstanding + 1 := by
  have hold : d.outstanding = (d.burden entry.task).tasks +
      (timeline.pending.map fun e => (d.burden e.task).tasks).sum := by
    unfold Dashboard.outstanding
    rw [(Timeline.pop?_eq_some_iff.1 hp).1, List.map_cons, List.sum_cons]
  have hsame (hothers : ∀ e ∈ timeline.pending, d₁.burden e.task = d.burden e.task) :
      (timeline.pending.map fun e => (d₁.burden e.task).tasks) =
        timeline.pending.map fun e => (d.burden e.task).tasks := by
    refine List.map_congr_left fun e he => ?_
    rw [hothers e he]
  cases h with
  | last hburden htimeline hothers =>
    have hnew : d₁.outstanding = (timeline.pending.map fun e => (d.burden e.task).tasks).sum := by
      unfold Dashboard.outstanding
      rw [htimeline, hsame hothers]
    have hone : (d.burden entry.task).tasks = 1 := congrArg Burden.tasks hburden
    omega
  | @more due next htasks _ htimeline hothers =>
    have hnew : d₁.outstanding = (d₁.burden next).tasks +
        (timeline.pending.map fun e => (d.burden e.task).tasks).sum := by
      unfold Dashboard.outstanding
      rw [htimeline, ← hsame hothers]
      exact ((timeline.pending_push due next).map _).sum_nat
    omega

/-- Running a task keeps the moments at which the last tasks on account of what waits are due, its
own due time apart: what holds of that one holds of all before exactly if it does afterwards. -/
theorem Discharges.forall_end_iff {P : Nat → Prop} (h : Discharges d entry timeline d₁)
    (hp : d.timeline.pop? = some (entry, timeline)) (hdue : P entry.due.nanos) :
    (∀ e ∈ d.timeline.pending, P (e.due.nanos + (d.burden e.task).span)) ↔
      ∀ e ∈ d₁.timeline.pending, P (e.due.nanos + (d₁.burden e.task).span) := by
  rw [(Timeline.pop?_eq_some_iff.1 hp).1]
  cases h with
  | last hburden htimeline hothers =>
    rw [htimeline]
    constructor
    · intro hf e he
      rw [hothers e he]
      exact hf e (List.mem_cons_of_mem _ he)
    · intro hf e he
      rcases List.mem_cons.1 he with rfl | he
      · rw [hburden]
        exact hdue
      · rw [← hothers e he]
        exact hf e he
  | more _ hspan htimeline hothers =>
    rw [htimeline]
    constructor
    · intro hf e he
      rcases Timeline.mem_push.1 he with rfl | he
      · rw [← hspan]
        exact hf _ (List.mem_cons_self ..)
      · rw [hothers e he]
        exact hf e (List.mem_cons_of_mem _ he)
    · intro hf e he
      rcases List.mem_cons.1 he with rfl | he
      · rw [hspan]
        exact hf _ (Timeline.mem_push.2 (.inl rfl))
      · rw [← hothers e he]
        exact hf e (Timeline.mem_push.2 (.inr he))

theorem Discharges.fits_iff (h : Discharges d entry timeline d₁)
    (hp : d.timeline.pop? = some (entry, timeline)) : d.Fits ↔ d₁.Fits :=
  h.forall_end_iff (P := (· < Duration.bound)) hp entry.due.nanos_lt

/-- Running until idle runs as many tasks as are outstanding. -/
theorem Drains.length (hd : Drains Timeline.pop? d entries d') (hr : Run (new config) h d) :
    d.Fits ∧ entries.length = d.outstanding := by
  induction hd generalizing h with
  | @done d hn =>
    have hnil := Timeline.pop?_eq_none_iff.1 hn
    unfold Fits Dashboard.outstanding
    rw [hnil]
    exact ⟨List.forall_mem_nil _, rfl⟩
  | run hp hrun _ ih =>
    have hdischarges := hr.discharges hp hrun
    obtain ⟨_, hr'⟩ := hr.fires hp hrun
    obtain ⟨hfits, hlength⟩ := ih hr'
    rw [List.length_cons, hlength, hdischarges.outstanding hp]
    exact ⟨(hdischarges.fits_iff hp).2 hfits, rfl⟩

/-- Running until idle comes to an end: every task that is run leaves one task less. -/
theorem Run.exists_drains (hr : Run (new config) h d) (hf : d.Fits) :
    ∃ entries d', Drains Timeline.pop? d entries d' := by
  generalize hn : d.outstanding = n
  induction n using Nat.strongRecOn generalizing h d with
  | ind n ih =>
    cases hp : d.timeline.pop? with
    | none => exact ⟨[], d, .done hp⟩
    | some taken =>
      obtain ⟨entry, timeline⟩ := taken
      obtain ⟨d₁, hrun⟩ := hr.exists_run hp (hf entry (Timeline.mem_of_pop? hp))
      have hdischarges := hr.discharges hp hrun
      have hless := hdischarges.outstanding hp
      obtain ⟨_, hr'⟩ := hr.fires hp hrun
      obtain ⟨entries, d', hd⟩ :=
        ih d₁.outstanding (by omega) hr' ((hdischarges.fits_iff hp).1 hf) rfl
      exact ⟨_, _, .run hp hrun hd⟩

/-! ## The end -/

/-- When nothing waits, no bar runs, and no chart that was drawn is animated. -/
theorem Run.at_rest (hr : Run (new config) h d) (hidle : d.timeline.pending = []) :
    d.sessions = .empty ∧ ∀ key target, d.target? key = some target →
      target.root.generation ≠ 0 → target.root.animation = none := by
  constructor
  · refine Table.eq_empty_of_get? fun session => ?_
    rcases hr.bars_on_time session with hu | ⟨start, ho⟩
    · exact hu.bar
    · cases ho with
      | @running _ due _ _ _ hticks =>
        obtain ⟨e, he, -⟩ := Timeline.mem_dues.1 (hticks ▸ List.mem_singleton_self due)
        rw [hidle] at he
        cases he
      | atRest _ hbar => exact hbar
  · intro key target hc hg
    have hanimated := hr.animated_iff hc hg
    rw [exists_clear_iff, hidle] at hanimated
    cases hn : target.root.animation with
    | none => rfl
    | some name =>
      obtain ⟨e, he, -⟩ := hanimated.1 (by rw [hn]; rfl)
      cases he

theorem Drains.le_now (hd : Drains Timeline.pop? d entries d') : d.now ≤ d'.now := by
  induction hd with
  | done => exact Nat.le_refl _
  | run hp hrun _ ih =>
    rw [now_run hp hrun, Duration.le_def, Duration.nanos_latest] at ih
    rw [Duration.le_def]
    omega

/-- All that is run until idle is due by the time shown at the end. -/
theorem Drains.popDue {limit : Duration} (hd : Drains Timeline.pop? d entries d')
    (hl : d'.now ≤ limit) : Drains (·.popDue? limit) d entries d' := by
  induction hd with
  | done hn =>
    refine .done (Timeline.popDue?_eq_none_iff.2 ?_)
    rw [Timeline.pop?_eq_none_iff.1 hn]
    intro e he
    cases he
  | run hp hrun hrest ih =>
    refine .run (Timeline.popDue?_eq_some_iff.2 ⟨hp, ?_⟩) hrun (ih hl)
    have hle := hrest.le_now
    rw [now_run hp hrun, Duration.le_def, Duration.nanos_latest] at hle
    rw [Duration.le_def] at hl ⊢
    omega

/-- Running until idle is letting pass the time that it takes. -/
theorem result_advance_of_runUntilIdle (hi : d.runUntilIdle.result = .ok (entries, d')) :
    ∃ dt, d.now.add? dt = some d'.now ∧ (d.advance dt).result = .ok (entries, d') := by
  have hd := result_runUntilIdle_eq_ok.1 hi
  have hle := hd.le_now
  have hlt := d'.now.nanos_lt
  rw [Duration.le_def] at hle
  have hdt : d.now.add? ⟨d'.now.nanos - d.now.nanos, by omega⟩ = some d'.now := by
    rw [Duration.add?_eq_some_iff]
    show d'.now.nanos = d.now.nanos + (d'.now.nanos - d.now.nanos)
    omega
  have hstays : d' = d'.waited d'.now := by
    unfold waited Timeline.advanceTo
    rw [show d'.timeline.now.latest d'.now = d'.timeline.now from if_pos (Nat.le_refl _)]
  exact ⟨_, hdt, result_advance_eq_ok.2 ⟨_, d', hdt, hd.popDue (Nat.le_refl _), hstays⟩⟩

/-- Running until idle comes to an end exactly if the clock does not overflow on account of what
waits.  It runs as many tasks as the burdens add up to and leaves nothing to do: no bar runs, and no
chart that was drawn is animated.  It does what letting as much time pass does. -/
theorem runUntilIdle_runs_outstanding
    (h : ((new config).performAll ops).result = .ok (answers, d)) :
    ((∃ entries d', d.runUntilIdle.result = .ok (entries, d')) ↔ d.Fits) ∧
      ∀ entries d', d.runUntilIdle.result = .ok (entries, d') →
        entries.length = d.outstanding ∧ d'.timeline.pending = [] ∧ d'.sessions = .empty ∧
        (∀ key target, d'.target? key = some target → target.root.generation ≠ 0 →
          target.root.animation = none) ∧
        ∃ dt, d.now.add? dt = some d'.now ∧ (d.advance dt).result = .ok (entries, d') := by
  have hr := run_of_performAll h
  refine ⟨⟨?_, ?_⟩, ?_⟩
  · rintro ⟨entries, d', hi⟩
    exact ((result_runUntilIdle_eq_ok.1 hi).length hr).1
  · intro hf
    obtain ⟨entries, d', hd⟩ := hr.exists_drains hf
    exact ⟨entries, d', result_runUntilIdle_eq_ok.2 hd⟩
  · intro entries d' hi
    have hd := result_runUntilIdle_eq_ok.1 hi
    have hidle := Timeline.pop?_eq_none_iff.1 hd.exhausted
    have hrest : Run d (d.replay (entries.flatMap Deed.running ++ [])) d' :=
      hd.replay takesFirst_pop .nil
    obtain ⟨hbars, hstill⟩ := (hr.append hrest).at_rest hidle
    exact ⟨(hd.length hr).2, hidle, hbars, hstill, result_advance_of_runUntilIdle hi⟩

/-- A chart that is to be drawn a second time, a bar and a loader that is to be hidden. -/
def beforeIdle : List Operation := [
  .mount employeeKey .fresh,
  .initCharts ⟨["1", "2", "3", "4"], [1.0, 2.0, 3.0, 4.0], [1.0, 1.0, 1.0, 1.0],
    [1.0, 1.0, 1.0, 1.0]⟩,
  .startLoadingBar,
  .loaderFinishSuccess]

/-- A clear, the second draw and its clear, fourteen steps of the bar, and the loader. -/
theorem runUntilIdle_runs_eighteen :
    ∃ answers d entries d', ((new .default).performAll beforeIdle).result = .ok (answers, d) ∧
      d.runUntilIdle.result = .ok (entries, d') ∧ entries.length = 18 ∧ d'.sessions = .empty ∧
        ∃ dt, (d.advance dt).result = .ok (entries, d') := by
  obtain ⟨hends, hend⟩ := @runUntilIdle_runs_outstanding .default _ beforeIdle _ rfl
  obtain ⟨entries, d', hi⟩ := hends.2 (by decide)
  obtain ⟨hlength, -, hbars, -, dt, -, hadvance⟩ := hend entries d' hi
  exact ⟨_, _, entries, d', rfl, hi, hlength, hbars, dt, hadvance⟩

end Dashboard

end Sparkboard
