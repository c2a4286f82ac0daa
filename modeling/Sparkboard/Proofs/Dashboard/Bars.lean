import Sparkboard.Proofs.Dashboard.ChartRuns
import Sparkboard.Proofs.Dashboard.History
import Sparkboard.Proofs.Dashboard.Parts
import Sparkboard.Proofs.Dashboard.TimelineRuns
import Sparkboard.Proofs.LoadingBar.Timetable
/-!
# Loading bars in every run

`Ticks` lists what a step can do to one loading bar; whatever else happens is not seen from it.  A
bar that was started is at one of its stages, its next step is the only one that waits, and this is
due when the stage ends, or the bar is at rest again and no step of it waits (`OnTime`).  Every step
keeps this (`Ticks.onTime`), so right after time has passed a bar shows what its timetable says, and
nothing else that the dashboard does makes a difference (`loadingBar_on_time`).
-/

namespace Sparkboard

namespace Dashboard

open LoadingBar (stage)

variable {config : Config} {h : History} {d d₀ d₁ d' : Dashboard} {deed : Deed} {session : Nat}
  {start : Duration} {before later : List Operation} {answers₀ answers : List Answer}

/-! ## Steps seen from one bar -/

/-- Is nothing different as far as one bar is concerned? -/
structure SameBar (session : Nat) (d d' : Dashboard) : Prop where
  config : d'.config = d.config
  bar : d'.sessions.get? session = d.sessions.get? session
  dues : d'.timeline.dues (.loadingTick session) = d.timeline.dues (.loadingTick session)
  started : d'.started ≤ session ↔ d.started ≤ session
  now : d.now ≤ d'.now

theorem Agree.sameBar (ha : Agree .bars d d') (hn : d.now ≤ d'.now) (session : Nat) :
    SameBar session d d' := by
  obtain ⟨hsessions, hstarted⟩ := PartState.bars.inj ha.state
  exact ⟨ha.config, by rw [hsessions], ha.dues rfl, by rw [hstarted], hn⟩

/-- What a step can do to one bar. -/
inductive Ticks (session : Nat) (d : Dashboard) : Dashboard → Prop where
  | elsewhere {d' : Dashboard} (h : SameBar session d d') : Ticks session d d'
  | started {due : Duration} (hstarted : d.started = session)
    (hd : d.now.add? d.config.barTiming.fadeIn = some due) :
    Ticks session d
      ({ d with
        started := session + 1
        sessions := d.sessions.insert session .started }.push due (.loadingTick session))
  | ticked {entry timeline bar next due} {delay : Duration}
    (hp : d.timeline.pop? = some (entry, timeline)) (ht : entry.task = .loadingTick session)
    (hb : d.sessions.get? session = some bar)
    (hk : bar.tick d.config.barTiming = (some delay, next))
    (hd : timeline.now.add? delay = some due) :
    Ticks session d
      ({ d with timeline, sessions := d.sessions.insert session next }.push due
        (.loadingTick session))
  | finished {entry timeline bar next}
    (hp : d.timeline.pop? = some (entry, timeline)) (ht : entry.task = .loadingTick session)
    (hb : d.sessions.get? session = some bar)
    (hk : bar.tick d.config.barTiming = (none, next)) :
    Ticks session d { d with timeline, sessions := d.sessions.erase session }
  /-- A step of a bar that is at rest. -/
  | missed {entry timeline} (hp : d.timeline.pop? = some (entry, timeline))
    (ht : entry.task = .loadingTick session) (hb : d.sessions.get? session = none) :
    Ticks session d { d with timeline }

section

variable {entry : Entry Task} {timeline : Timeline Task} {other : Nat}

theorem loadingTick_ne (hne : other ≠ session) :
    Task.loadingTick other ≠ .loadingTick session :=
  fun heq => hne (Task.loadingTick.inj heq)

theorem sameBar_start {due : Duration} (hne : d.started ≠ session) :
    SameBar session d
      ({ d with
        started := d.started + 1
        sessions := d.sessions.insert d.started .started }.push due (.loadingTick d.started)) where
  config := rfl
  bar := by
    show (d.sessions.insert d.started _).get? session = _
    rw [Table.get?_insert, if_neg hne.symm]
  dues := Timeline.dues_push_other (loadingTick_ne hne)
  started := by
    show d.started + 1 ≤ session ↔ d.started ≤ session
    omega
  now := Nat.le_refl _

theorem Ran.sameBar (hran : Ran { d with timeline } (.loadingTick other) d')
    (hp : d.timeline.pop? = some (entry, timeline)) (ht : entry.task = .loadingTick other)
    (hne : other ≠ session) : SameBar session d d' := by
  have hdues : timeline.dues (.loadingTick session) = d.timeline.dues (.loadingTick session) :=
    Timeline.dues_pop_other hp (by rw [ht]; exact loadingTick_ne hne)
  have hnow : d.now ≤ { d with timeline }.now := now_le_pop hp
  cases hran with
  | stale => exact ⟨rfl, rfl, hdues, Iff.rfl, hnow⟩
  | tick =>
    refine ⟨rfl, ?_, (Timeline.dues_push_other (loadingTick_ne hne)).trans hdues, Iff.rfl, hnow⟩
    show (d.sessions.insert other _).get? session = _
    rw [Table.get?_insert, if_neg hne.symm]
  | lastTick =>
    refine ⟨rfl, ?_, hdues, Iff.rfl, hnow⟩
    show (d.sessions.erase other).get? session = _
    rw [Table.get?_erase, if_neg hne.symm]

end

theorem ticks_of_step (hs : Step d deed d') (session : Nat) : Ticks session d d' := by
  have hunseen {d' : Dashboard} (ha : Agree .bars d d') (hn : d.now ≤ d'.now) :
      Ticks session d d' := .elsewhere (ha.sameBar hn session)
  cases hs with
  | mount key target => exact hunseen (agree_mount target nofun) (Nat.le_refl _)
  | unmount key => exact hunseen (agree_unmount nofun) (Nat.le_refl _)
  | draw h =>
    refine hunseen (h.agree nofun) ?_
    rw [h.now]
    exact Nat.le_refl _
  | planRedraw hd => exact hunseen (agree_push _ rfl) (Nat.le_refl _)
  | moveLoader state =>
    refine hunseen (agree_withLoader state nofun) ?_
    rw [now_withLoader]
    exact Nat.le_refl _
  | finishLoader hd =>
    have hmove : Agree .bars d (d.withLoader .success) := agree_withLoader .success nofun
    refine hunseen (hmove.trans (agree_push _ rfl)) ?_
    show d.now ≤ (d.withLoader .success).now
    rw [now_withLoader]
    exact Nat.le_refl _
  | startBar hd =>
    by_cases hthis : d.started = session
    · subst hthis
      exact .started rfl hd
    · exact .elsewhere (sameBar_start hthis)
  | @fire entry timeline d' hp hr h =>
    cases ho : Part.bars.owns entry.task with
    | false =>
      refine hunseen ((agree_pop hp ho).trans (h.agree ho)) ?_
      rw [h.now]
      exact now_le_pop hp
    | true =>
      generalize ht : entry.task = task at h ho
      cases task with
      | clearAnimation | redraw | autoIdle => cases ho
      | loadingTick other =>
        by_cases hother : other = session
        · subst hother
          cases h with
          | stale hs => exact .missed hp ht hs
          | tick hb hk hd => exact .ticked hp ht hb hk hd
          | lastTick hb hk => exact .finished hp ht hb hk
        · exact .elsewhere (h.sameBar hp ht hother)
  | takeRedraw hp ht =>
    refine hunseen (agree_pop hp ?_) (now_le_pop hp)
    rw [ht]
    rfl
  | wait hn hm =>
    refine hunseen (agree_waited .bars d _) ?_
    rw [now_waited hn]
    exact hn

/-! ## Bars on time -/

/-- No bar of this session was started yet. -/
structure Unstarted (d : Dashboard) (session : Nat) : Prop where
  not_lt : d.started ≤ session
  bar : d.sessions.get? session = none
  ticks : d.timeline.dues (.loadingTick session) = []

/-- A bar that was started at `start` is at one of its stages, and its only step that waits is due
when the stage ends; or it is at rest, and no step of it waits. -/
inductive OnTime (d : Dashboard) (session : Nat) (start : Duration) : Prop where
  | running {k : Nat} {due : Duration} (hlt : session < d.started) (hk : k < 14)
    (hbar : d.sessions.get? session = some (stage k))
    (hticks : d.timeline.dues (.loadingTick session) = [due])
    (hdue : due.nanos = start.nanos + d.config.barTiming.begins (k + 1))
    (hpast : start.nanos + d.config.barTiming.begins k ≤ d.now.nanos)
  | atRest (hlt : session < d.started) (hbar : d.sessions.get? session = none)
    (hticks : d.timeline.dues (.loadingTick session) = [])
    (hpast : start.nanos + d.config.barTiming.begins 14 ≤ d.now.nanos)

theorem OnTime.lt_started (h : d.OnTime session start) : session < d.started := by
  cases h <;> assumption

/-- What leaves the bar alone lets it be on time. -/
theorem OnTime.of_same (h : d.OnTime session start) (hsame : SameBar session d d') :
    d'.OnTime session start := by
  have hlt := h.lt_started
  have hstarted := hsame.started
  have hnow := hsame.now
  rw [Duration.le_def] at hnow
  cases h with
  | running _ hk hbar hticks hdue hpast =>
    rw [← hsame.config] at hdue hpast
    exact .running (by omega) hk (hsame.bar.trans hbar) (hsame.dues.trans hticks) hdue (by omega)
  | atRest _ hbar hticks hpast =>
    rw [← hsame.config] at hpast
    exact .atRest (by omega) (hsame.bar.trans hbar) (hsame.dues.trans hticks) (by omega)

/-- A bar that is not at rest, when a step of it comes due: the step that waited was due when its
stage ends, and no other step waits. -/
theorem OnTime.at_tick {entry : Entry Task} {timeline : Timeline Task} {bar : LoadingBar}
    (h : d.OnTime session start) (hs : d.timeline.Sound)
    (hp : d.timeline.pop? = some (entry, timeline)) (ht : entry.task = .loadingTick session)
    (hb : d.sessions.get? session = some bar) :
    ∃ k, k < 14 ∧ bar = stage k ∧ timeline.dues (.loadingTick session) = [] ∧
      timeline.now.nanos = start.nanos + d.config.barTiming.begins (k + 1) := by
  cases h with
  | @running k due _ hk hbar hticks hdue =>
    rw [hb, Option.some.injEq] at hbar
    rw [Timeline.dues_pop_self hp ht, List.cons.injEq] at hticks
    refine ⟨k, hk, hbar, hticks.2, ?_⟩
    rw [hs.now_pop hp, hticks.1, hdue]
  | atRest _ hbar =>
    rw [hb] at hbar
    cases hbar

theorem Ticks.onTime (ht : Ticks session d d') (hs : d.timeline.Sound)
    (h : d.OnTime session start) : d'.OnTime session start := by
  have hlt := h.lt_started
  cases ht with
  | elsewhere hsame => exact h.of_same hsame
  | started hstarted => omega
  | ticked hp htask hb hk hd =>
    obtain ⟨k, hk14, rfl, hnone, hnow⟩ := h.at_tick hs hp htask hb
    obtain ⟨hk13, rfl, rfl⟩ := BarTiming.tick_stage_eq_some hk14 hk
    refine .running hlt (Nat.succ_lt_succ hk13) ?_ ((hs.pop hp).dues_push hnone) ?_
      (Nat.le_of_eq hnow.symm)
    · show (d.sessions.insert session _).get? session = _
      rw [Table.get?_insert, if_pos rfl]
    · rw [Duration.add?_eq_some_iff.1 hd, hnow, Nat.add_assoc]
      rfl
  | finished hp htask hb hk =>
    obtain ⟨k, hk14, rfl, hnone, hnow⟩ := h.at_tick hs hp htask hb
    obtain rfl := BarTiming.tick_stage_eq_none hk14 hk
    refine .atRest hlt ?_ hnone (Nat.le_of_eq hnow.symm)
    show (d.sessions.erase session).get? session = none
    rw [Table.get?_erase, if_pos rfl]
  | missed hp htask hb =>
    -- the bar is at rest, so none of its steps waited
    cases h with
    | running _ _ hbar =>
      rw [hb] at hbar
      cases hbar
    | atRest _ _ hticks =>
      rw [Timeline.dues_pop_self hp htask] at hticks
      cases hticks

theorem Ticks.unstarted (ht : Ticks session d d') (hs : d.timeline.Sound)
    (h : d.Unstarted session) : d'.Unstarted session ∨ d'.OnTime session d.now := by
  have hticks := h.ticks
  cases ht with
  | elsewhere hsame =>
    exact .inl ⟨hsame.started.2 h.not_lt, hsame.bar.trans h.bar, hsame.dues.trans hticks⟩
  | started _ hd =>
    refine .inr (.running (k := 0) (Nat.lt_succ_self _) (by omega) ?_ (hs.dues_push hticks) ?_
      (Nat.le_refl _))
    · show (d.sessions.insert session _).get? session = _
      rw [Table.get?_insert, if_pos rfl]
      rfl
    · rw [Duration.add?_eq_some_iff.1 hd, BarTiming.begins, BarTiming.begins, Nat.zero_add]
      rfl
  | ticked hp htask | finished hp htask | missed hp htask =>
    rw [Timeline.dues_pop_self hp htask] at hticks
    cases hticks

/-! ## Every run -/

/-- In every run each bar was not started yet, or it is on time. -/
theorem Run.bars_on_time (hr : Run (new config) h d) (session : Nat) :
    d.Unstarted session ∨ ∃ start, d.OnTime session start := by
  induction hr with
  | nil => exact .inl ⟨Nat.zero_le _, rfl, rfl⟩
  | snoc hr hs ih =>
    have ht := ticks_of_step hs session
    rcases ih with hu | ⟨start, ho⟩
    · rcases ht.unstarted hr.sound hu with hu | ho
      · exact .inl hu
      · exact .inr ⟨_, ho⟩
    · exact .inr ⟨start, ht.onTime hr.sound ho⟩

/-- A step of a bar that comes due is the only one, and the bar is at one of its stages. -/
theorem Run.tick_due (hr : Run (new config) h d) {entry : Entry Task} {timeline : Timeline Task}
    (hp : d.timeline.pop? = some (entry, timeline)) (ht : entry.task = .loadingTick session) :
    ∃ k, k < 14 ∧ d.sessions.get? session = some (stage k) ∧
      timeline.dues (.loadingTick session) = [] := by
  have hpop := Timeline.dues_pop_self hp ht
  rcases hr.bars_on_time session with hu | ⟨start, ho⟩
  · rw [hu.ticks] at hpop
    cases hpop
  · cases hb : d.sessions.get? session with
    | some bar =>
      obtain ⟨k, hk, rfl, hnone, -⟩ := ho.at_tick hr.sound hp ht hb
      exact ⟨k, hk, rfl, hnone⟩
    | none =>
      cases ho with
      | running _ _ hbar =>
        rw [hb] at hbar
        cases hbar
      | atRest _ _ hticks =>
        rw [hticks] at hpop
        cases hpop

theorem Run.onTime (hr : Run d₀ h d) (hs : d₀.timeline.Sound) (ho : d₀.OnTime session start) :
    d.OnTime session start := by
  induction hr with
  | nil => exact ho
  | snoc hr hstep ih => exact (ticks_of_step hstep session).onTime (hr.keeps_sound hs) ih

theorem session_of_startLoadingBar (h : d.startLoadingBar.result = .ok (session, d')) :
    session = d.started := by
  obtain ⟨_, -, he⟩ := Work.result_bind_eq_ok.1 h
  cases he
  rfl

theorem Run.starts_on_time (hr : Run (new config) h d)
    (hstart : d.startLoadingBar.result = .ok (session, d')) :
    Run (new config) (h ++ [⟨d, .startBar⟩]) d' ∧ d'.OnTime session d.now := by
  have hact : (d.act .startBar).result = .ok d' := Work.result_bind_eq_ok.2 ⟨_, hstart, rfl⟩
  have hstep : Step d .startBar d' := step_of_act trivial hact
  have hsession := session_of_startLoadingBar hstart
  refine ⟨hr.snoc hstep, ?_⟩
  rcases hr.bars_on_time session with hu | ⟨start, ho⟩
  · rcases (ticks_of_step hstep session).unstarted hr.sound hu with hu' | ho
    · have hcount : d'.started = d.started + 1 := by
        cases hstep
        rfl
      have hle := hu'.not_lt
      omega
    · exact ho
  · have hlt := ho.lt_started
    omega

/-- Right after time has passed, a bar shows what its timetable says for the time since its start,
whatever else was done meanwhile and however the time was sliced. -/
theorem loadingBar_on_time
    (hbefore : ((new config).performAll before).result = .ok (answers₀, d₀))
    (hstart : d₀.startLoadingBar.result = .ok (session, d₁))
    (hlater : (d₁.performAll later).result = .ok (answers, d))
    (hl : later.getLast? = some .runUntilIdle ∨ ∃ dt, later.getLast? = some (.advance dt)) :
    d₀.now ≤ d.now ∧
      d.sessions.get? session = config.barTiming.barAt (d.now.nanos - d₀.now.nanos) := by
  obtain ⟨hr, hfirst⟩ := (run_of_performAll hbefore).starts_on_time hstart
  have hrun := run_of_performAll hlater
  have hsound := hrun.keeps_sound hr.sound
  have hconfig : d.config = config := (hr.append hrun).config_eq
  have honTime := hrun.onTime hr.sound hfirst
  rw [Duration.le_def, ← hconfig]
  cases honTime with
  | @running k due _ hk hbar hticks hdue hpast =>
    -- the step that ends the stage still waits, so it is due later
    obtain ⟨e, he, -, hedue⟩ := Timeline.mem_dues.1 (hticks ▸ List.mem_singleton_self due)
    rcases hl with hidle | ⟨dt, hadvance⟩
    · rw [pending_of_runUntilIdle hlater hidle] at he
      cases he
    · have hlt := now_lt_due hsound hlater hadvance e he
      rw [hedue, Duration.lt_def] at hlt
      refine ⟨by omega, hbar.trans (BarTiming.barAt_eq_stage hk ?_ ?_).symm⟩ <;> omega
  | atRest _ hbar hticks hpast =>
    refine ⟨by omega, hbar.trans (BarTiming.barAt_eq_none ?_).symm⟩
    omega

/-- Another bar, a chart and the loader, and then time in two slices. -/
def otherWork : List Operation := [
  .startLoadingBar,
  .mount sshKey .fresh,
  .draw ["1", "2", "3", "4"] [1.0, 2.0, 3.0, 4.0] sshKey,
  .loaderFinishSuccess,
  .advance (.ofMillis 850),
  .advance (.ofMillis 250)]

/-- A bar that is started a tenth of a second after another one is filled to thirty percent when it
has run for 1.1 seconds. -/
theorem loadingBar_at_thirty :
    ∃ answers d₀ d₁ answers' d,
      ((new .default).performAll [.startLoadingBar, .advance (.ofMillis 100)]).result =
        .ok (answers, d₀) ∧
      d₀.startLoadingBar.result = .ok (1, d₁) ∧
      (d₁.performAll otherWork).result = .ok (answers', d) ∧
      d.now.nanos - d₀.now.nanos = 1100000000 ∧
      d.sessions.get? 1 = some ⟨.filling, true, some LoadingBar.fadeInName, 40, 30⟩ := by
  refine ⟨_, _, _, _, _, rfl, rfl, rfl, rfl, ?_⟩
  exact (@loadingBar_on_time .default _ _ _ 1 [.startLoadingBar, .advance (.ofMillis 100)] otherWork
    _ _ rfl rfl rfl (.inr ⟨.ofMillis 250, rfl⟩)).2

end Dashboard

end Sparkboard
