import Sparkboard.Proofs.Dashboard.Running
import Sparkboard.Proofs.LoadingBar.Finish
/-!
# Draining the timeline

`drain` runs on fuel.  Running a task brings the workload down (`workload_run`), so the workload is
fuel enough, and what a drain does is told by `Drains`, in which no fuel occurs: tasks are taken off
and run until none is to be taken off (`result_drain_eq_ok`).  From then on `advance` and
`runUntilIdle` are argued about by induction on `Drains`.
-/

namespace Sparkboard

namespace Dashboard

variable {d d' d₁ : Dashboard} {entry : Entry Task} {timeline : Timeline Task} {task : Task}

/-! ## The workload -/

theorem effort_pos (d : Dashboard) (task : Task) : 0 < d.effort task := by
  cases task with
  | clearAnimation | redraw | autoIdle => exact Nat.succ_pos _
  | loadingTick session =>
    simp only [effort]
    split
    · exact LoadingBar.ticksLeft_pos _
    · exact Nat.one_pos

/-- The effort for a task depends on the running bars only. -/
theorem effort_of_sessions (h : d'.sessions = d.sessions) (task : Task) :
    d'.effort task = d.effort task := by
  cases task with
  | clearAnimation | redraw | autoIdle => rfl
  | loadingTick session =>
    unfold effort
    rw [h]

theorem workload_of_sessions (h : d'.sessions = d.sessions)
    (hp : d'.timeline.pending = d.timeline.pending) : d'.workload = d.workload := by
  have he : d'.effort = d.effort := funext (effort_of_sessions h)
  unfold workload
  rw [hp, he]

theorem workload_mono (h : ∀ task, d'.effort task ≤ d.effort task)
    (hp : d'.timeline.pending = d.timeline.pending) : d'.workload ≤ d.workload := by
  unfold workload
  rw [hp]
  induction d.timeline.pending with
  | nil => exact Nat.le_refl _
  | cons e es ih =>
    simp only [List.foldr_cons]
    exact Nat.add_le_add (h e.task) ih

theorem workload_push (d : Dashboard) (due : Duration) (task : Task) :
    (d.push due task).workload = d.effort task + d.workload := by
  have he : (d.push due task).effort = d.effort := funext (effort_of_sessions rfl)
  unfold workload
  rw [he]
  refine (d.timeline.pending_push due task).foldr_eq' ?_ 0
  intro x _ y _ n
  omega

theorem workload_pop (hp : d.timeline.pop? = some (entry, timeline)) :
    d.workload = d.effort entry.task + { d with timeline }.workload := by
  have he : { d with timeline }.effort = d.effort := funext (effort_of_sessions rfl)
  unfold workload
  rw [he, (Timeline.pop?_eq_some_iff.1 hp).1, List.foldr_cons]

theorem Draws.workload {labels : List String} {values : List Float} {key : String}
    {outcome : Except ChartError Nat} (h : d.Draws labels values key outcome d') :
    d'.workload ≤ d.workload + 1 := by
  cases h with
  | refused => exact Nat.le_succ _
  | @came texts series target due hc hd =>
    have hpush : (d.drawn key texts series target due).workload =
        (d.push due (.clearAnimation key (d.lastGeneration key + 1))).workload :=
      workload_of_sessions rfl rfl
    rw [hpush, workload_push]
    show 1 + d.workload ≤ d.workload + 1
    omega

/-- A bar that moves on makes no task harder. -/
theorem effort_insert_le {session : Nat} {bar next : LoadingBar}
    (hb : d.sessions.get? session = some bar) (hn : next.ticksLeft ≤ bar.ticksLeft) (task : Task) :
    { d with sessions := d.sessions.insert session next }.effort task ≤ d.effort task := by
  cases task with
  | clearAnimation | redraw | autoIdle => exact Nat.le_refl _
  | loadingTick s =>
    simp only [effort, Table.get?_insert]
    by_cases hs : s = session
    · subst hs
      rw [hb]
      simpa using hn
    · simp only [if_neg hs]
      exact Nat.le_refl _

theorem effort_erase_le (d : Dashboard) (session : Nat) (task : Task) :
    { d with sessions := d.sessions.erase session }.effort task ≤ d.effort task := by
  cases task with
  | clearAnimation | redraw | autoIdle => exact Nat.le_refl _
  | loadingTick s =>
    simp only [effort, Table.get?_erase]
    by_cases hs : s = session
    · simp only [if_pos hs]
      exact effort_pos d (.loadingTick s)
    · simp only [if_neg hs]
      exact Nat.le_refl _

/-- Running a task takes at least one off the work that is left. -/
theorem Ran.workload (h : d.Ran task d') : d'.workload + 1 ≤ d.effort task + d.workload := by
  have hpos := effort_pos d task
  cases h with
  | stale => omega
  | clear hc =>
    have hw (charts) : { d with charts }.workload = d.workload := workload_of_sessions rfl rfl
    rw [hw]
    omega
  | redraw hd =>
    have := hd.workload
    show d'.workload + 1 ≤ 2 + d.workload
    omega
  | autoIdle =>
    have hw : (d.withLoader .idle).workload = d.workload := workload_of_sessions rfl rfl
    omega
  | @tick session bar next due delay hb hk hd =>
    have hnext := LoadingBar.ticksLeft_tick hk
    have hticks : next.ticksLeft ≤ bar.ticksLeft := by omega
    have hle := workload_mono (effort_insert_le hb hticks) rfl
    have heffort : d.effort (.loadingTick session) = bar.ticksLeft := by
      simp only [effort, hb]
    have hself : { d with sessions := d.sessions.insert session next }.effort
        (.loadingTick session) = next.ticksLeft := by
      simp only [effort, Table.get?_insert, if_true]
    rw [workload_push, hself, heffort]
    omega
  | @lastTick session bar next hb hk =>
    have hle := workload_mono (effort_erase_le d session) rfl
    omega

/-- Taking off a task and running it brings the workload down. -/
theorem workload_run (hp : d.timeline.pop? = some (entry, timeline))
    (hr : ({ d with timeline }.run entry.task).result = .ok d') : d'.workload < d.workload := by
  have hran := (ran_of_run hr).workload
  have heffort : { d with timeline }.effort entry.task = d.effort entry.task :=
    effort_of_sessions rfl entry.task
  rw [workload_pop hp]
  omega

/-! ## Drains without fuel -/

/-- Does `pop` take off the task that stands first, if it takes off any? -/
def TakesFirst (pop : Timeline Task → Option (Entry Task × Timeline Task)) : Prop :=
  ∀ t entry rest, pop t = some (entry, rest) → t.pop? = some (entry, rest)

theorem takesFirst_pop : TakesFirst Timeline.pop? := fun _ _ _ h => h

theorem takesFirst_popDue (limit : Duration) : TakesFirst (·.popDue? limit) :=
  fun _ _ _ h => (Timeline.popDue?_eq_some_iff.1 h).1

/-- Tasks are taken off by `pop` and run, until `pop` takes off none. -/
inductive Drains (pop : Timeline Task → Option (Entry Task × Timeline Task)) :
    Dashboard → List (Entry Task) → Dashboard → Prop where
  | done {d : Dashboard} (hn : pop d.timeline = none) : Drains pop d [] d
  | run {d d₁ d' : Dashboard} {entry timeline entries}
    (hp : pop d.timeline = some (entry, timeline))
    (hr : ({ d with timeline }.run entry.task).result = .ok d₁)
    (rest : Drains pop d₁ entries d') : Drains pop d (entry :: entries) d'

section

variable {pop : Timeline Task → Option (Entry Task × Timeline Task)} {entries : List (Entry Task)}

theorem workload_pos (hp : d.timeline.pop? = some (entry, timeline)) : 0 < d.workload := by
  have := effort_pos d entry.task
  rw [workload_pop hp]
  omega

/-- With the workload for fuel, a drain goes on until nothing is left to take off. -/
theorem result_drain_eq_ok (hpop : TakesFirst pop) {fuel : Nat} (hw : d.workload ≤ fuel) :
    (drain pop fuel d).result = .ok (entries, d') ↔ Drains pop d entries d' := by
  induction fuel generalizing d entries with
  | zero =>
    have hn : pop d.timeline = none := by
      cases hp : pop d.timeline with
      | none => rfl
      | some taken => have := workload_pos (hpop _ _ _ hp); omega
    constructor
    · intro h
      cases h
      exact .done hn
    · intro h
      cases h with
      | done => rfl
      | run hp => rw [hn] at hp; cases hp
  | succ fuel ih =>
    rw [drain]
    cases hp : pop d.timeline with
    | none =>
      constructor
      · intro h
        cases h
        exact .done hp
      · intro h
        cases h with
        | done => rfl
        | run hp' => rw [hp] at hp'; cases hp'
    | some taken =>
      obtain ⟨entry, timeline⟩ := taken
      simp only [Work.result_bind_eq_ok]
      constructor
      · intro hex
        obtain ⟨d₁, hr, ⟨rest, d₂⟩, hd, he⟩ := hex
        cases he
        have hlt := workload_run (hpop _ _ _ hp) hr
        exact .run hp hr ((ih (by omega)).1 hd)
      · intro h
        cases h with
        | done hn => rw [hp] at hn; cases hn
        | run hp' hr rest =>
          rw [hp] at hp'
          cases hp'
          have hlt := workload_run (hpop _ _ _ hp) hr
          exact ⟨_, hr, _, (ih (by omega)).2 rest, rfl⟩

/-- After a drain nothing is left to take off. -/
theorem Drains.exhausted (h : Drains pop d entries d') : pop d'.timeline = none := by
  induction h with
  | done hn => exact hn
  | run _ _ _ ih => exact ih

end

theorem result_advance_eq_ok {dt : Duration} {entries : List (Entry Task)} :
    (d.advance dt).result = .ok (entries, d') ↔
      ∃ limit d₁, d.now.add? dt = some limit ∧ Drains (·.popDue? limit) d entries d₁ ∧
        d' = d₁.waited limit := by
  unfold advance
  cases ha : d.timeline.now.add? dt with
  | none =>
    constructor
    · intro h
      cases h
    · intro hex
      obtain ⟨limit, _, hl, _⟩ := hex
      have hl' : d.timeline.now.add? dt = some limit := hl
      rw [ha] at hl'
      cases hl'
  | some limit =>
    simp only [Work.result_bind_eq_ok,
      result_drain_eq_ok (takesFirst_popDue limit) (Nat.le_refl _)]
    constructor
    · intro hex
      obtain ⟨⟨entries, d₁⟩, hd, he⟩ := hex
      cases he
      exact ⟨limit, d₁, ha, hd, rfl⟩
    · intro hex
      obtain ⟨limit', d₁, hl, hd, rfl⟩ := hex
      have hl' : d.timeline.now.add? dt = some limit' := hl
      rw [ha] at hl'
      cases hl'
      exact ⟨(entries, d₁), hd, rfl⟩

theorem result_runUntilIdle_eq_ok {entries : List (Entry Task)} :
    d.runUntilIdle.result = .ok (entries, d') ↔ Drains Timeline.pop? d entries d' :=
  result_drain_eq_ok takesFirst_pop (Nat.le_refl _)

/-! ## The clock -/

theorem now_run (hp : d.timeline.pop? = some (entry, timeline))
    (hr : ({ d with timeline }.run entry.task).result = .ok d') :
    d'.now = d.now.latest entry.due := by
  rw [(ran_of_run hr).now]
  show timeline.now = _
  exact (Timeline.pop?_eq_some_iff.1 hp).2.1

/-- Running what is due by a moment does not move the clock past it. -/
theorem Drains.now_le {limit : Duration} {entries : List (Entry Task)}
    (h : Drains (·.popDue? limit) d entries d') (hn : d.now ≤ limit) : d'.now ≤ limit := by
  induction h with
  | done => exact hn
  | run hp hr _ ih =>
    obtain ⟨hpop, hdue⟩ := Timeline.popDue?_eq_some_iff.1 hp
    apply ih
    rw [now_run hpop hr]
    rw [Duration.le_def] at hn hdue ⊢
    rw [Duration.nanos_latest]
    omega

end Dashboard

end Sparkboard
