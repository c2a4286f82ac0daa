import Sparkboard.Proofs.Dashboard.Horizon
/-!
# Tasks on time

Every task that is scheduled waits until it is due and is run then.  A history tells what its deeds
schedule (`Moment.scheduled?`: the task, due a delay after the clock) and what they run
(`Deed.fired?`).  What was run and what waits are together what waited at first and what was
scheduled (`Run.perm`), the tasks are run in order (`Run.fired_sorted`), and the clock shows the due
time of each when it is run (`Run.fired_on_time`).  So letting time pass runs exactly what is due by
the end, also of what is scheduled meanwhile (`advance_runs_what_is_due`).
-/

namespace Sparkboard

def Deed.fired? : Deed → Option (Entry Task)
  | .fire entry => some entry
  | _ => none

namespace Deed

theorem fired?_eq_some {deed : Deed} {entry : Entry Task} :
    deed.fired? = some entry ↔ deed = .fire entry := by
  cases deed <;> simp [fired?]

/-- Of the deeds that run a task, one takes it off. -/
theorem fired?_running (entry : Entry Task) : (running entry).filterMap fired? = [entry] := by
  unfold running
  split <;> rfl

end Deed

/-- An entry comes out before one that is due no earlier and was scheduled later. -/
theorem Entry.Before.of_le {τ : Type} {e f : Entry τ} (hdue : e.due ≤ f.due)
    (horder : e.order < f.order) : e.Before f := by
  rcases Nat.lt_or_eq_of_le hdue with hlt | heq
  · exact .inl hlt
  · exact .inr ⟨Duration.ext heq, horder⟩

namespace Moment

/-- The clock while the deed is done: to run a task it moves on to the time when that is due. -/
def clock (m : Moment) : Duration :=
  match m.deed with
  | .fire _ => m.before.popped.now
  | _ => m.before.now

/-- The task that the deed schedules, and its delay. -/
def plan? (m : Moment) : Option (Duration × Task) :=
  match m.deed with
  | .draw labels values key =>
    match (m.before.draw labels values key).result with
    | .ok (.ok generation, _) =>
      some (m.before.config.animator.clearAfter, .clearAnimation key generation)
    | _ => none
  | .planRedraw labels =>
    some (m.before.config.refreshDelay, .redraw employeeKey labels refreshSample)
  | .finishLoader =>
    some (m.before.config.loaderAutoIdle, .autoIdle (m.before.loader.generation + 1))
  | .startBar => some (m.before.config.barTiming.fadeIn, .loadingTick m.before.started)
  | .fire entry =>
    match entry.task with
    | .loadingTick session =>
      (m.before.sessions.get? session).bind fun bar =>
        (bar.tick m.before.config.barTiming).1.map fun delay => (delay, .loadingTick session)
    | _ => none
  | _ => none

/-- The entry that the deed schedules: it is due when the delay is over, and its number is that of
the tasks scheduled before. -/
def scheduled? (m : Moment) : Option (Entry Task) :=
  m.plan?.bind fun plan =>
    (m.clock.add? plan.1).map fun due => ⟨due, m.before.timeline.scheduled, plan.2⟩

theorem scheduled?_eq {m : Moment} {delay due : Duration} {task : Task}
    (hp : m.plan? = some (delay, task)) (hd : m.clock.add? delay = some due) :
    m.scheduled? = some ⟨due, m.before.timeline.scheduled, task⟩ := by
  unfold scheduled?
  rw [hp, Option.bind_some, hd]
  rfl

theorem scheduled?_eq_none {m : Moment} (hp : m.plan? = none) : m.scheduled? = none := by
  unfold scheduled?
  rw [hp]
  rfl

theorem plan?_of_scheduled? {m : Moment} {e : Entry Task} (h : m.scheduled? = some e) :
    ∃ delay, m.plan? = some (delay, e.task) ∧ m.clock.add? delay = some e.due := by
  unfold scheduled? at h
  obtain ⟨plan, hp, h⟩ := Option.bind_eq_some_iff.1 h
  obtain ⟨due, hd, rfl⟩ := Option.map_eq_some_iff.1 h
  exact ⟨plan.1, hp, hd⟩

end Moment

namespace History

/-- The entries that were scheduled, in order. -/
def scheduled (h : History) : List (Entry Task) := h.filterMap Moment.scheduled?

/-- The entries whose tasks were run, in order. -/
def fired (h : History) : List (Entry Task) := h.filterMap (·.deed.fired?)

theorem scheduled_snoc (h : History) (m : Moment) :
    History.scheduled (h ++ [m]) = h.scheduled ++ m.scheduled?.toList := by
  unfold scheduled
  rw [List.filterMap_append]
  cases hm : m.scheduled? <;> simp [hm]

theorem fired_snoc (h : History) (m : Moment) :
    History.fired (h ++ [m]) = h.fired ++ m.deed.fired?.toList := by
  unfold fired
  rw [List.filterMap_append]
  cases hm : m.deed.fired? <;> simp [hm]

theorem fired_append (h h' : History) : History.fired (h ++ h') = h.fired ++ h'.fired :=
  List.filterMap_append

theorem fired_of_deeds {h : History} {deeds : List Deed} (hd : h.map Moment.deed = deeds) :
    h.fired = deeds.filterMap Deed.fired? := by
  rw [← hd, List.filterMap_map]
  rfl

/-- Was the entry scheduled at some moment, to be due when a delay after that is over? -/
def Schedules (h : History) (e : Entry Task) : Prop :=
  ∃ m ∈ h, ∃ delay, m.scheduled? = some e ∧ m.plan? = some (delay, e.task) ∧
    m.clock.add? delay = some e.due

end History

namespace Dashboard

variable {config : Config} {start d d' : Dashboard} {h : History} {deed : Deed} {e f : Entry Task}
  {entry : Entry Task} {timeline : Timeline Task} {ops : List Operation} {answers : List Answer}

/-! ## What one step schedules -/

theorem pending_push (d : Dashboard) (due : Duration) (task : Task) :
    (d.push due task).timeline.pending.Perm
      (d.timeline.pending ++ [⟨due, d.timeline.scheduled, task⟩]) :=
  (d.timeline.pending_push due task).trans (List.perm_append_singleton _ _).symm

theorem Draws.perm {labels : List String} {values : List Float} {key : String}
    {outcome : Except ChartError Nat} (h : d.Draws labels values key outcome d') :
    d'.timeline.pending.Perm
      (d.timeline.pending ++ (Moment.scheduled? ⟨d, .draw labels values key⟩).toList) := by
  have hresult := h.result
  cases h with
  | refused hc =>
    have hplan : Moment.plan? ⟨d, .draw labels values key⟩ = none := by
      simp only [Moment.plan?, hresult]
    rw [Moment.scheduled?_eq_none hplan]
    exact .of_eq (List.append_nil _).symm
  | came hc hd =>
    have hplan : Moment.plan? ⟨d, .draw labels values key⟩ =
        some (d.config.animator.clearAfter, .clearAnimation key (d.lastGeneration key + 1)) := by
      simp only [Moment.plan?, hresult]
    rw [Moment.scheduled?_eq hplan hd]
    exact pending_push d _ _

/-- Running a task schedules nothing, unless it is a step of a bar and not the last one. -/
theorem Ran.perm (hp : d.timeline.pop? = some (entry, timeline))
    (hr : ∀ key labels values, entry.task ≠ .redraw key labels values)
    (h : Ran { d with timeline } entry.task d') :
    (entry :: d'.timeline.pending).Perm
      (d.timeline.pending ++ (Moment.scheduled? ⟨d, .fire entry⟩).toList) := by
  have hpending : d.timeline.pending = entry :: timeline.pending :=
    (Timeline.pop?_eq_some_iff.1 hp).1
  have hscheduled := Timeline.scheduled_pop hp
  have hclock : Moment.clock ⟨d, .fire entry⟩ = timeline.now := by
    show d.popped.now = _
    rw [popped_eq hp]
    rfl
  have hnothing (hn : Moment.plan? ⟨d, .fire entry⟩ = none) :
      (entry :: timeline.pending).Perm
        (d.timeline.pending ++ (Moment.scheduled? ⟨d, .fire entry⟩).toList) := by
    rw [Moment.scheduled?_eq_none hn, hpending]
    exact .of_eq (List.append_nil _).symm
  obtain ⟨due, order, task⟩ := entry
  dsimp only at h hr
  cases h with
  | stale hs =>
    refine hnothing ?_
    cases task with
    | clearAnimation | redraw | autoIdle => rfl
    | loadingTick session =>
      have hgone : d.sessions.get? session = none := hs
      simp only [Moment.plan?, hgone, Option.bind_none]
  | clear => exact hnothing rfl
  | redraw => exact absurd rfl (hr _ _ _)
  | autoIdle => exact hnothing rfl
  | @tick session bar next due' delay hb hk hd =>
    have hbar : d.sessions.get? session = some bar := hb
    have htick : bar.tick d.config.barTiming = (some delay, next) := hk
    have hplan : Moment.plan? ⟨d, .fire ⟨due, order, .loadingTick session⟩⟩ =
        some (delay, .loadingTick session) := by
      simp only [Moment.plan?, hbar, Option.bind_some, htick, Option.map_some]
    have hdue : (Moment.clock ⟨d, .fire ⟨due, order, .loadingTick session⟩⟩).add? delay =
        some due' := by
      rw [hclock]
      exact hd
    rw [Moment.scheduled?_eq hplan hdue, hpending, ← hscheduled]
    exact (pending_push { d with timeline } _ _).cons _
  | @lastTick session bar next hb hk =>
    have hbar : d.sessions.get? session = some bar := hb
    have htick : bar.tick d.config.barTiming = (none, next) := hk
    refine hnothing ?_
    simp only [Moment.plan?, hbar, Option.bind_some, htick, Option.map_none]

/-- One step: what is run and what waits then, and what waited and what is scheduled. -/
theorem Step.perm (hs : Step d deed d') :
    (deed.fired?.toList ++ d'.timeline.pending).Perm
      (d.timeline.pending ++ (Moment.scheduled? ⟨d, deed⟩).toList) := by
  cases hs with
  | mount | unmount | wait => exact .of_eq (List.append_nil _).symm
  | draw h => exact h.perm
  | @planRedraw labels due hd =>
    have hplan : Moment.plan? ⟨d, .planRedraw labels⟩ =
        some (d.config.refreshDelay, .redraw employeeKey labels refreshSample) := rfl
    rw [Moment.scheduled?_eq hplan hd]
    exact pending_push d _ _
  | moveLoader state =>
    rw [timeline_withLoader]
    exact .of_eq (List.append_nil _).symm
  | finishLoader hd =>
    have hplan : Moment.plan? ⟨d, .finishLoader⟩ =
        some (d.config.loaderAutoIdle, .autoIdle (d.withLoader .success).loader.generation) := rfl
    rw [Moment.scheduled?_eq hplan hd]
    exact pending_push (d.withLoader .success) _ _
  | startBar hd =>
    have hplan : Moment.plan? ⟨d, .startBar⟩ =
        some (d.config.barTiming.fadeIn, .loadingTick d.started) := rfl
    rw [Moment.scheduled?_eq hplan hd]
    exact pending_push { d with
      started := d.started + 1
      sessions := d.sessions.insert d.started .started } _ _
  | fire hp hr h => exact h.perm hp hr
  | @takeRedraw entry timeline key labels values hp ht =>
    have hplan : Moment.plan? ⟨d, .fire entry⟩ = none := by
      simp only [Moment.plan?, ht]
    rw [Moment.scheduled?_eq_none hplan, (Timeline.pop?_eq_some_iff.1 hp).1]
    exact .of_eq (List.append_nil _).symm

/-- What was run and what waits are together what waited at first and what was scheduled. -/
theorem Run.perm (hr : Run start h d) :
    (h.fired ++ d.timeline.pending).Perm (start.timeline.pending ++ h.scheduled) := by
  induction hr with
  | nil => exact .of_eq (List.append_nil _).symm
  | @snoc h d d' deed _ hs ih =>
    rw [History.fired_snoc, History.scheduled_snoc, List.append_assoc]
    refine (hs.perm.append_left _).trans ?_
    rw [← List.append_assoc, ← List.append_assoc]
    exact ih.append_right _

/-! ## The order in which tasks are run -/

/-- The task that is run stood first, and at most one more is scheduled. -/
theorem Step.pop_of_fire (hs : Step d (.fire f) d') :
    ∃ timeline, d.timeline.pop? = some (f, timeline) ∧ timeline.Grows d'.timeline := by
  cases hs with
  | fire hp hr h => exact ⟨_, hp, h.grows⟩
  | takeRedraw hp => exact ⟨_, hp, .same⟩

/-- The clock shows the due time of a task that is run. -/
theorem Step.clock_of_fire (hs : Step d (.fire f) d') (hsound : d.timeline.Sound) :
    Moment.clock ⟨d, .fire f⟩ = f.due := by
  obtain ⟨timeline, hp, -⟩ := hs.pop_of_fire
  show d.popped.now = _
  rw [popped_eq hp]
  exact hsound.now_pop hp

/-- A task that is run comes before all that wait then. -/
theorem Step.fired_before (hs : Step d (.fire f) d') (hsound : d.timeline.Sound) :
    f.due ≤ d'.now ∧ f.order < d'.timeline.scheduled ∧ ∀ e ∈ d'.timeline.pending, f.Before e := by
  have hsound' := hs.moves.sound hsound
  obtain ⟨timeline, hp, hgrows⟩ := hs.pop_of_fire
  have hnow : d'.now = f.due := hgrows.now_eq.trans (hsound.now_pop hp)
  have horder : f.order < d.timeline.scheduled :=
    d.timeline.order_lt f (Timeline.mem_of_pop? hp)
  have hsorted : (f :: timeline.pending).Pairwise Entry.Before :=
    (Timeline.pop?_eq_some_iff.1 hp).1 ▸ hsound.sorted
  refine ⟨hnow ▸ Nat.le_refl _, Nat.lt_of_lt_of_le horder hs.moves.scheduled_le, ?_⟩
  intro e he
  rcases hgrows.mem_pending he with hold | hnew
  · exact (List.pairwise_cons.1 hsorted).1 e hold
  · refine .of_le (hnow ▸ hsound'.now_le e he) ?_
    rw [hnew, Timeline.scheduled_pop hp]
    exact horder

/-- All that was run was due by now, and comes before all that waits. -/
theorem Run.fired_before (hr : Run start h d) (hs : start.timeline.Sound) :
    ∀ f ∈ h.fired,
      f.due ≤ d.now ∧ f.order < d.timeline.scheduled ∧ ∀ e ∈ d.timeline.pending, f.Before e := by
  induction hr with
  | nil => exact List.forall_mem_nil _
  | @snoc h d d' deed hr hstep ih =>
    have hsound := hr.keeps_sound hs
    have hsound' := hstep.moves.sound hsound
    have hnow := hstep.moves.now_le
    intro f hf
    rw [History.fired_snoc] at hf
    rcases List.mem_append.1 hf with hf | hf
    · obtain ⟨hdue, horder, hbefore⟩ := ih f hf
      refine ⟨Nat.le_trans hdue hnow, Nat.lt_of_lt_of_le horder hstep.moves.scheduled_le, ?_⟩
      intro e he
      rcases hstep.moves.mem_pending he with hold | hnew
      · exact hbefore e hold
      · have hlater : f.due ≤ e.due := Nat.le_trans hdue (Nat.le_trans hnow (hsound'.now_le e he))
        exact .of_le hlater (hnew ▸ horder)
    · obtain rfl : deed = .fire f := Deed.fired?_eq_some.1 (Option.mem_toList.1 hf)
      exact hstep.fired_before hsound

/-- Tasks are run in the order of due time, then of scheduling. -/
theorem Run.fired_sorted (hr : Run start h d) (hs : start.timeline.Sound) :
    h.fired.Pairwise Entry.Before := by
  induction hr with
  | nil => exact .nil
  | @snoc h d d' deed hr hstep ih =>
    rw [History.fired_snoc]
    refine List.pairwise_append.2 ⟨ih, ?_, ?_⟩
    · cases deed.fired? with
      | none => exact .nil
      | some f => exact List.pairwise_singleton _ f
    · intro e he f hf
      obtain rfl : deed = .fire f := Deed.fired?_eq_some.1 (Option.mem_toList.1 hf)
      obtain ⟨timeline, hp, -⟩ := hstep.pop_of_fire
      exact (hr.fired_before hs e he).2.2 f (Timeline.mem_of_pop? hp)

/-- Every task that is run was scheduled at some moment, and is run when its delay is over. -/
theorem Run.fired_on_time (hr : Run (new config) h d) {m : Moment} (hm : m ∈ h)
    (hf : m.deed = .fire f) : m.clock = f.due ∧ h.Schedules f := by
  constructor
  · obtain ⟨earlier, d₂, hbefore, hstep⟩ := hr.at_moment hm
    obtain ⟨before, deed⟩ := m
    obtain rfl : deed = .fire f := hf
    exact hstep.clock_of_fire hbefore.sound
  · have hfired : f ∈ h.fired := List.mem_filterMap.2 ⟨m, hm, Deed.fired?_eq_some.2 hf⟩
    have hscheduled : f ∈ h.scheduled := hr.perm.mem_iff.1 (List.mem_append_left _ hfired)
    obtain ⟨m₀, hm₀, hentry⟩ := List.mem_filterMap.1 hscheduled
    obtain ⟨delay, hplan, hdue⟩ := Moment.plan?_of_scheduled? hentry
    exact ⟨m₀, hm₀, delay, hentry, hplan, hdue⟩

/-! ## Letting time pass -/

theorem Drains.fired_replay {pop : Timeline Task → Option (Entry Task × Timeline Task)}
    {entries : List (Entry Task)} (hd : Drains pop d entries d') (hpop : TakesFirst pop)
    (rest : List Deed) :
    History.fired (d.replay (entries.flatMap Deed.running ++ rest)) =
      entries ++ History.fired (d'.replay rest) := by
  induction hd with
  | done => rfl
  | run hp hrun _ ih =>
    obtain ⟨first, hreplay, hdeeds, -⟩ := replay_running_eq (hpop _ _ _ hp) hrun _
    rw [List.flatMap_cons, List.append_assoc, hreplay, History.fired_append, ih,
      History.fired_of_deeds hdeeds, Deed.fired?_running]
    rfl

theorem history_single {op : Operation} {answer : Answer}
    (h : (d.perform op).result = .ok (answer, d')) :
    d.history [op] = d.replay (d.deeds op answer) := by
  rw [history]
  simp only [h]
  exact List.append_nil _

/-- While time passes, the tasks of the answer are run, one after the other. -/
theorem fired_advance {dt : Duration} {entries : List (Entry Task)}
    (h : (d.advance dt).result = .ok (entries, d')) :
    Run d (d.history [.advance dt]) d' ∧ (d.history [.advance dt]).fired = entries := by
  have hop : (d.perform (.advance dt)).result = .ok (.ran entries, d') :=
    Work.result_bind_eq_ok.2 ⟨_, h, rfl⟩
  rw [history_single hop]
  refine ⟨run_of_perform hop, ?_⟩
  obtain ⟨limit, d₁, hl, hd, rfl⟩ := result_advance_eq_ok.1 h
  show History.fired (d.replay
    (entries.flatMap Deed.running ++ ((d.now.add? dt).map Deed.wait).toList)) = _
  rw [hl, hd.fired_replay (takesFirst_popDue limit)]
  exact List.append_nil _

/-- No task waits past the time when it is due.  Letting time pass runs exactly what is due by the
end, of what waited and of what is scheduled meanwhile, in the order of due time, then of
scheduling.  The clock shows the due time of each when it is run, which is when its delay is over,
and at the end it shows the time that was to pass, and all that waits is due later. -/
theorem advance_runs_what_is_due
    (h : ((new config).performAll ops).result = .ok (answers, d)) :
    (∀ e ∈ d.timeline.pending, d.now ≤ e.due) ∧
    ∀ dt limit, d.now.add? dt = some limit →
      (d.Fits → ∃ entries d', (d.advance dt).result = .ok (entries, d')) ∧
      ∀ entries d', (d.advance dt).result = .ok (entries, d') →
        Run d (d.history [.advance dt]) d' ∧
        (d.history [.advance dt]).fired = entries ∧
        entries.Perm ((d.timeline.pending ++ (d.history [.advance dt]).scheduled).filter
          (·.due ≤ limit)) ∧
        entries.Pairwise Entry.Before ∧
        (∀ m ∈ d.history [.advance dt], ∀ e, m.deed = .fire e →
          m.clock = e.due ∧
            ((new config).history ops ++ d.history [.advance dt]).Schedules e) ∧
        d'.now = limit ∧
        ∀ e ∈ d'.timeline.pending, limit < e.due := by
  have hr := run_of_performAll h
  refine ⟨hr.sound.now_le, fun dt limit hl => ⟨fun hf => hr.exists_advance_of_fits hf hl, ?_⟩⟩
  intro entries d' ha
  obtain ⟨hduring, hfired⟩ := fired_advance ha
  have hnow := lt_due_of_advance (hr.append hduring).sound hl ha
  refine ⟨hduring, hfired, ?_, hfired ▸ hduring.fired_sorted hr.sound, ?_, hnow⟩
  · have hrun : entries.filter (·.due ≤ limit) = entries := by
      refine List.filter_eq_self.2 fun f hf => decide_eq_true ?_
      rw [← hnow.1]
      exact (hduring.fired_before hr.sound f (hfired ▸ hf)).1
    have hlater : d'.timeline.pending.filter (·.due ≤ limit) = [] := by
      refine List.filter_eq_nil_iff.2 fun e he hle => ?_
      exact Nat.not_le.2 (hnow.2 e he) (of_decide_eq_true hle)
    have hall := hduring.perm.filter (·.due ≤ limit)
    rwa [List.filter_append, hfired, hrun, hlater, List.append_nil] at hall
  · intro m hm e he
    exact (hr.append hduring).fired_on_time (List.mem_append_right _ hm) he

/-- A configuration whose loading bars take all their steps at once. -/
def hastyBars : Config := { Config.default with loadingTickMs := 0 }

/-- A bar, a chart that is to be drawn a second time, and a loader that is to be hidden. -/
def beforeHaste : List Operation := [
  .startLoadingBar,
  .mount employeeKey .fresh,
  .initCharts ⟨["1", "2", "3", "4"], [1.0, 2.0, 3.0, 4.0], [], []⟩,
  .loaderFinishSuccess]

/-- Of the sixteen tasks that are run in a second and a half, twelve are scheduled meanwhile, eleven
of them for the moment when they are scheduled. -/
theorem advance_runs_hasty_bar :
    ∃ answers d entries d', ((new hastyBars).performAll beforeHaste).result = .ok (answers, d) ∧
      (d.advance (.ofMillis 1500)).result = .ok (entries, d') ∧ entries.length = 16 ∧
      d.timeline.pending.length = 4 ∧ entries.Pairwise Entry.Before ∧
      d'.now = .ofMillis 1500 ∧ ∀ e ∈ d'.timeline.pending, .ofMillis 1500 < e.due := by
  obtain ⟨answers, d, entries, d', hrun, hl, ha, hlength, hpending⟩ : ∃ answers d entries d',
      ((new hastyBars).performAll beforeHaste).result = .ok (answers, d) ∧
        d.now.add? (.ofMillis 1500) = some (.ofMillis 1500) ∧
        (d.advance (.ofMillis 1500)).result = .ok (entries, d') ∧ entries.length = 16 ∧
        d.timeline.pending.length = 4 :=
    ⟨_, _, _, _, rfl, rfl, rfl, rfl, rfl⟩
  obtain ⟨-, hpasses⟩ := advance_runs_what_is_due hrun
  obtain ⟨-, hall⟩ := hpasses _ _ hl
  obtain ⟨-, -, -, hsorted, -, hnow, hlater⟩ := hall entries d' ha
  exact ⟨answers, d, entries, d', hrun, ha, hlength, hpending, hsorted, hnow, hlater⟩

end Dashboard

end Sparkboard
