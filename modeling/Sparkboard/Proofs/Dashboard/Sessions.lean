import Sparkboard.Proofs.Dashboard.Bars
import Sparkboard.Proofs.Dashboard.Concern
import Sparkboard.Proofs.Table.Order
/-!
# Sessions and their steps

The running bars are stored by session.  In every run the steps that wait are those of the stored
bars, one of each (`Run.matchesTicks`), for a bar is stored exactly while a step of it waits, and
what is stored is a stage of a bar.  Sessions are numbered in the order in which bars are started,
so none is handed out twice (`sessions_match_ticks`).
-/

namespace Sparkboard

/-- Is the bar as a dashboard keeps it: shown, and with the width and the animation of its phase? -/
inductive LoadingBar.Consistent : LoadingBar → Prop where
  | fadingIn : Consistent ⟨.fadingIn, true, some "fadeIn", 0, 0⟩
  | filling {k : Nat} (hk : 1 ≤ k ∧ k ≤ 11) :
    Consistent ⟨.filling, true, some "fadeIn", 10 * k, 10 * k - 10⟩
  | settling : Consistent ⟨.settling, true, some "fadeIn", 110, 100⟩
  | fadingOut : Consistent ⟨.fadingOut, true, some "fadeOut", 110, 100⟩

def Task.session? : Task → Option Nat
  | .loadingTick session => some session
  | _ => none

def Answer.session? : Answer → Option Nat
  | .session id => some id
  | _ => none

theorem Task.session?_eq_some {task : Task} {session : Nat} :
    task.session? = some session ↔ task = .loadingTick session := by
  cases task <;> simp [session?]

theorem LoadingBar.consistent_stage {k : Nat} (hk : k < 14) : (stage k).Consistent := by
  obtain rfl | hfill | rfl | rfl : k = 0 ∨ (1 ≤ k ∧ k ≤ 11) ∨ k = 12 ∨ k = 13 := by omega
  · exact .fadingIn
  · have hstage : stage k = ⟨.filling, true, some "fadeIn", 10 * k, 10 * k - 10⟩ := by
      unfold stage
      rw [if_neg (by omega), if_pos hfill.2, Nat.mul_sub]
      rfl
    rw [hstage]
    exact .filling hfill
  · exact .settling
  · exact .fadingOut

namespace Dashboard

variable {config : Config} {h : History} {d d' : Dashboard} {deed : Deed} {session : Nat}
  {ops : List Operation} {answers : List Answer}

/-- The sessions of the steps that wait, in the order in which these are due. -/
def ticking (d : Dashboard) : List Nat :=
  d.timeline.pending.filterMap fun e => e.task.session?

/-- Do the steps that wait match the stored bars? -/
structure MatchesTicks (d : Dashboard) : Prop where
  /-- Each stored session has one step that waits, and no other session has any. -/
  ticking : d.ticking.Perm d.sessions.keys
  nodup : d.sessions.keys.Nodup
  lt_started : ∀ session ∈ d.sessions.keys, session < d.started
  consistent : ∀ e ∈ d.sessions.entries, e.2.Consistent

theorem count_ticking (d : Dashboard) (session : Nat) :
    d.ticking.count session = (d.timeline.dues (.loadingTick session)).length := by
  unfold ticking Timeline.dues Timeline.agenda
  rw [List.count_filterMap, List.length_map, List.length_map, ← List.countP_eq_length_filter]
  refine List.countP_congr fun e _ => ?_
  simp [Task.session?_eq_some]

/-! ## The stored bars -/

theorem Agree.sorted_sessions (ha : Agree .bars d d') (hs : d.sessions.Sorted) :
    d'.sessions.Sorted := by
  rw [(PartState.bars.inj ha.state).1]
  exact hs

theorem Ran.sorted_sessions {task : Task} (h : d.Ran task d') (hs : d.sessions.Sorted) :
    d'.sessions.Sorted := by
  cases h with
  | stale | clear => exact hs
  | redraw hd => exact Agree.sorted_sessions (hd.agree nofun) hs
  | autoIdle => exact Agree.sorted_sessions (agree_withLoader .idle nofun) hs
  | tick => exact hs.insert _ _
  | lastTick => exact hs.erase _

/-- In every run the bars are stored in the order of their sessions. -/
theorem Run.sorted_sessions (hr : Run (new config) h d) : d.sessions.Sorted := by
  induction hr with
  | nil => exact .nil
  | snoc _ hs ih =>
    cases hs with
    | mount | unmount | planRedraw | takeRedraw | wait => exact ih
    | draw hd => exact Agree.sorted_sessions (hd.agree nofun) ih
    | moveLoader state => exact Agree.sorted_sessions (agree_withLoader state nofun) ih
    | finishLoader =>
      have hmoved := Agree.sorted_sessions (agree_withLoader .success nofun) ih
      exact Agree.sorted_sessions (agree_push _ rfl) hmoved
    | startBar => exact ih.insert _ _
    | fire _ _ hran => exact hran.sorted_sessions ih

/-- In every run the steps that wait match the stored bars. -/
theorem Run.matchesTicks (hr : Run (new config) h d) : d.MatchesTicks where
  ticking := by
    have hs := hr.sorted_sessions
    refine List.perm_iff_count.2 fun session => ?_
    have hcount : d.sessions.keys.count session =
        if (d.sessions.get? session).isSome then 1 else 0 := by
      rw [hs.nodup_keys.count]
      exact if_congr (hs.mem_keys_iff.trans Option.isSome_iff_exists.symm) rfl rfl
    rw [count_ticking, hcount]
    rcases hr.bars_on_time session with hu | ⟨start, ho⟩
    · rw [hu.ticks, hu.bar]
      rfl
    · cases ho with
      | running _ _ hbar hticks =>
        rw [hticks, hbar]
        rfl
      | atRest _ hbar hticks =>
        rw [hticks, hbar]
        rfl
  nodup := hr.sorted_sessions.nodup_keys
  lt_started := by
    intro session hmem
    obtain ⟨bar, hb⟩ := hr.sorted_sessions.mem_keys_iff.1 hmem
    rcases hr.bars_on_time session with hu | ⟨start, ho⟩
    · rw [hu.bar] at hb
      cases hb
    · exact ho.lt_started
  consistent := by
    rintro ⟨session, bar⟩ he
    have hb := hr.sorted_sessions.get?_eq_some_iff.2 he
    rcases hr.bars_on_time session with hu | ⟨start, ho⟩
    · rw [hu.bar] at hb
      cases hb
    · cases ho with
      | running _ hk hbar =>
        obtain rfl := Option.some.inj (hbar.symm.trans hb)
        exact LoadingBar.consistent_stage hk
      | atRest _ hbar =>
        rw [hbar] at hb
        cases hb

/-! ## The sessions that are handed out -/

theorem Ran.started {task : Task} (h : d.Ran task d') : d'.started = d.started := by
  cases h with
  | stale | clear | tick | lastTick => rfl
  | redraw hd => cases hd <;> rfl
  | autoIdle =>
    unfold withLoader
    rfl

theorem Drains.started {pop : Timeline Task → Option (Entry Task × Timeline Task)}
    {entries : List (Entry Task)} (hd : Drains pop d entries d') : d'.started = d.started := by
  induction hd with
  | done => rfl
  | run _ hrun _ ih => exact ih.trans (ran_of_run hrun).started

/-- An operation hands out the next session if it starts a bar, and else none. -/
theorem session_of_perform {op : Operation} {answer : Answer}
    (hop : (d.perform op).result = .ok (answer, d')) :
    (answer.session? = some d.started ∧ d'.started = d.started + 1) ∨
      (answer.session? = none ∧ d'.started = d.started) := by
  have hother (hc : op.concerns .bars = false) : d'.started = d.started :=
    (PartState.bars.inj (agree_of_perform hop hc).1.state).2
  cases op with
  | mount | unmount =>
    refine .inr ⟨?_, hother rfl⟩
    cases hop
    rfl
  | draw | initCharts | loaderStart | loaderStep | loaderFinishSuccess | loaderHide =>
    refine .inr ⟨?_, hother rfl⟩
    obtain ⟨_, -, he⟩ := Work.result_bind_eq_ok.1 hop
    cases he
    rfl
  | startLoadingBar =>
    obtain ⟨_, hstart, he⟩ := Work.result_bind_eq_ok.1 hop
    cases he
    obtain ⟨_, hafter, he⟩ := Work.result_bind_eq_ok.1 hstart
    cases he
    obtain ⟨due, -, rfl⟩ := result_after_eq_ok.1 hafter
    exact .inl ⟨rfl, rfl⟩
  | advance dt =>
    obtain ⟨⟨_, _⟩, ha, he⟩ := Work.result_bind_eq_ok.1 hop
    cases he
    obtain ⟨limit, _, -, hd, rfl⟩ := result_advance_eq_ok.1 ha
    exact .inr ⟨rfl, hd.started⟩
  | runUntilIdle =>
    obtain ⟨⟨_, _⟩, hi, he⟩ := Work.result_bind_eq_ok.1 hop
    cases he
    exact .inr ⟨rfl, (result_runUntilIdle_eq_ok.1 hi).started⟩

/-- Operations hand out the sessions that follow, in order. -/
theorem sessions_of_performAll (hops : (d.performAll ops).result = .ok (answers, d')) :
    ∃ n, d'.started = d.started + n ∧
      answers.filterMap Answer.session? = List.range' d.started n := by
  induction ops generalizing d answers with
  | nil =>
    cases hops
    exact ⟨0, rfl, rfl⟩
  | cons op ops ih =>
    obtain ⟨⟨answer, d₁⟩, hop, hrest⟩ := Work.result_bind_eq_ok.1 hops
    obtain ⟨⟨_, _⟩, hops', he⟩ := Work.result_bind_eq_ok.1 hrest
    cases he
    obtain ⟨n, hstarted, hsessions⟩ := ih hops'
    rcases session_of_perform hop with ⟨hanswer, hnext⟩ | ⟨hanswer, hsame⟩
    · refine ⟨n + 1, by omega, ?_⟩
      rw [List.filterMap_cons_some hanswer, hsessions, hnext, List.range'_succ]
    · refine ⟨n, by omega, ?_⟩
      rw [List.filterMap_cons_none hanswer, hsessions, hsame]

/-- In every state that operations lead to, and in every state in between, the steps that wait are
those of the stored bars, one of each; the stored sessions were handed out, and no session is handed
out twice; and every stored bar is consistent. -/
theorem sessions_match_ticks (hops : ((new config).performAll ops).result = .ok (answers, d)) :
    d.MatchesTicks ∧ (∀ m ∈ (new config).history ops, m.before.MatchesTicks) ∧
      answers.filterMap Answer.session? = List.range d.started := by
  have hr := run_of_performAll hops
  refine ⟨hr.matchesTicks, fun m hm => ?_, ?_⟩
  · obtain ⟨earlier, _, hbefore, -⟩ := hr.at_moment hm
    exact hbefore.matchesTicks
  · obtain ⟨n, hstarted, hsessions⟩ := sessions_of_performAll hops
    have hnew : (new config).started = 0 := rfl
    rw [hsessions, hstarted, hnew, Nat.zero_add, List.range_eq_range']

/-- Two bars, of which the first has come to rest when a third one starts. -/
def threeBars : List Operation := [
  .startLoadingBar,
  .advance (.ofMillis 100),
  .startLoadingBar,
  .advance (.ofMillis 3200),
  .startLoadingBar]

/-- A step waits for each of the two bars that are stored, and the session of the first bar was not
handed out again. -/
theorem sessions_match_ticks_threeBars :
    ∃ answers d, ((new .default).performAll threeBars).result = .ok (answers, d) ∧
      d.sessions.keys = [1, 2] ∧ d.ticking.Perm [1, 2] ∧
      answers.filterMap Answer.session? = [0, 1, 2] := by
  obtain ⟨hd, -, hsessions⟩ := @sessions_match_ticks .default _ threeBars _ rfl
  exact ⟨_, _, rfl, rfl, hd.ticking, hsessions⟩

end Dashboard

end Sparkboard
