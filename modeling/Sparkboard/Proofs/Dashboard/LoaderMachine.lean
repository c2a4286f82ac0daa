import Sparkboard.Proofs.Dashboard.ChartRuns
import Sparkboard.Proofs.Dashboard.Concern
import Sparkboard.Proofs.Dashboard.Staleness
/-!
# The loader as a machine of its own

Seen from outside the loader is a small machine: what it shows, and a deadline at which success is
hidden.  `Tracks` relates it to a dashboard: of all tasks that are to hide the loader only the ones
of its last move count, and such a task waits exactly if there is a deadline, and is due then.
Whatever is done keeps this (`Tracks.perform`), so the machine tells what the loader shows after any
operations, and a task that hides the loader hides the success that it was scheduled for
(`loader_refines_machine`).
-/

namespace Sparkboard

/-- The loader as seen from outside. -/
structure LoaderMachine where
  state : LoaderState
  /-- When success is hidden, unless the loader moves before. -/
  deadline : Option Duration
  deriving DecidableEq

namespace LoaderMachine

/-- Nothing is shown, nothing is to come. -/
def start : LoaderMachine := ⟨.idle, none⟩

/-- Success is hidden if its deadline is past. -/
def expire (m : LoaderMachine) (past : Duration → Bool) : LoaderMachine :=
  if m.deadline.any past then start else m

/-- What an operation does, with the clock when it starts. -/
def step (autoIdle : Duration) (m : LoaderMachine) : Duration × Operation → LoaderMachine
  | (_, .loaderStart) => ⟨.request, none⟩
  | (_, .loaderStep) => ⟨m.state.next, none⟩
  | (_, .loaderHide) => ⟨.idle, none⟩
  | (now, .loaderFinishSuccess) => ⟨.success, now.add? autoIdle⟩
  | (now, .advance dt) => m.expire fun due => due.nanos ≤ now.nanos + dt.nanos
  | (_, .runUntilIdle) => m.expire fun _ => true
  | _ => m

end LoaderMachine

namespace Dashboard

/-- The operations of a run, each with the clock when it starts. -/
def timed (d : Dashboard) : List Operation → List (Duration × Operation)
  | [] => []
  | op :: ops =>
    (d.now, op) ::
      match (d.perform op).result with
      | .ok (_, d') => d'.timed ops
      | .error _ => []

variable {config : Config} {h : History} {d d₁ d' : Dashboard} {m : LoaderMachine}
  {entry : Entry Task} {timeline : Timeline Task} {state : LoaderState}

/-- Does the machine show what the loader shows, now and later?  The tasks that count are those that
are to hide the loader and were scheduled at its last move. -/
structure Tracks (d : Dashboard) (m : LoaderMachine) : Prop where
  state : d.loader.state = m.state
  deadline : d.timeline.dues (.autoIdle d.loader.generation) = m.deadline.toList

/-- What is not seen from the loader makes no difference. -/
theorem Agree.tracks (ha : Agree .loader d d') (ht : Tracks d m) : Tracks d' m := by
  have hloader := (PartState.loader.inj ha.state).1
  refine ⟨by rw [hloader, ht.state], ?_⟩
  rw [hloader, ha.dues rfl, ht.deadline]

/-- No task that waits is for a move that the loader has not made yet. -/
def HidesMade (d : Dashboard) : Prop :=
  ∀ e ∈ d.timeline.pending, ∀ generation, e.task = .autoIdle generation →
    generation ≤ d.loader.generation

theorem Run.hidesMade (hr : Run (new config) h d) : d.HidesMade :=
  fun _ he _ ht => hr.autoIdle_le he ht

theorem hidesMade_pop (hm : d.HidesMade) (hp : d.timeline.pop? = some (entry, timeline)) :
    { d with timeline }.HidesMade :=
  fun e he => hm e (Timeline.mem_of_mem_pop hp he)

/-- A move of the loader leaves no task behind that could hide it. -/
theorem dues_withLoader (hm : d.HidesMade) (state : LoaderState) :
    (d.withLoader state).timeline.dues (.autoIdle (d.withLoader state).loader.generation) = [] := by
  refine Timeline.dues_eq_nil_iff.2 fun e he ht => ?_
  have hle := hm e he _ ht
  exact absurd hle (Nat.not_succ_le_self _)

theorem tracks_withLoader (hm : d.HidesMade) (state : LoaderState) :
    Tracks (d.withLoader state) ⟨state, none⟩ :=
  ⟨rfl, dues_withLoader hm state⟩

theorem tracks_of_moveLoader (hm : d.HidesMade)
    (h : (d.moveLoader (d.loader.move state)).result = .ok d') : Tracks d' ⟨state, none⟩ := by
  rw [result_moveLoader, Except.ok.injEq] at h
  rw [← h]
  exact tracks_withLoader hm state

theorem tracks_of_loaderFinishSuccess (hr : Run (new config) h d)
    (hf : d.loaderFinishSuccess.result = .ok d') :
    Tracks d' ⟨.success, d.now.add? d.config.loaderAutoIdle⟩ := by
  obtain ⟨due, hdue, rfl⟩ := result_loaderFinishSuccess.1 hf
  have hsound : (d.withLoader .success).timeline.Sound := hr.sound
  rw [hdue]
  exact ⟨rfl, hsound.dues_push (dues_withLoader hr.hidesMade .success)⟩

/-! ## Passing time -/

/-- A task that comes due hides the loader at the deadline, or it makes no difference. -/
theorem Tracks.run (ht : Tracks d m) (hm : d.HidesMade)
    (hp : d.timeline.pop? = some (entry, timeline))
    (hrun : ({ d with timeline }.run entry.task).result = .ok d₁) :
    m.deadline = some entry.due ∧ Tracks d₁ .start ∨ Tracks d₁ m := by
  by_cases hcurrent : entry.task = .autoIdle d.loader.generation
  · left
    rw [hcurrent] at hrun
    have hidden : ({ d with timeline }.run (.autoIdle d.loader.generation)).result = _ :=
      result_run_autoIdle { d with timeline }
    rw [hidden, Except.ok.injEq] at hrun
    rw [← hrun]
    refine ⟨?_, tracks_withLoader (hidesMade_pop hm hp) .idle⟩
    have hdeadline := ht.deadline
    rw [Timeline.dues_pop_self hp hcurrent] at hdeadline
    cases hd : m.deadline with
    | none =>
      rw [hd] at hdeadline
      cases hdeadline
    | some due =>
      rw [hd, Option.toList_some, List.cons.injEq] at hdeadline
      rw [hdeadline.1]
  · right
    cases ho : Part.loader.owns entry.task with
    | false => exact ((agree_pop hp ho).trans ((ran_of_run hrun).agree ho)).tracks ht
    | true =>
      have hstale : { d with timeline }.Stale entry.task := by
        generalize entry.task = task at hcurrent ho
        cases task with
        | autoIdle generation => exact fun heq => hcurrent (congrArg Task.autoIdle heq)
        | clearAnimation | redraw | loadingTick => cases ho
      rw [result_run_of_stale hstale, Except.ok.injEq] at hrun
      rw [← hrun]
      exact ⟨ht.state, (Timeline.dues_pop_other hp hcurrent).trans ht.deadline⟩

/-- Running what `past` says is past hides the loader if its deadline is. -/
theorem Drains.tracks {pop : Timeline Task → Option (Entry Task × Timeline Task)}
    {past : Duration → Bool} {entries : List (Entry Task)} (hpop : TakesFirst pop)
    (htaken : ∀ t e t', pop t = some (e, t') → past e.due = true)
    (hleft : ∀ t, t.Sound → pop t = none → ∀ e ∈ t.pending, past e.due = false)
    (hd : Drains pop d entries d') (hr : Run (new config) h d) (ht : Tracks d m) :
    Tracks d' (m.expire past) := by
  induction hd generalizing h m with
  | @done d hn =>
    have hnot : m.deadline.any past = false := by
      cases hdeadline : m.deadline with
      | none => rfl
      | some due =>
        have hmem : due ∈ d.timeline.dues (.autoIdle d.loader.generation) := by
          rw [ht.deadline, hdeadline]
          exact List.mem_singleton_self _
        obtain ⟨e, he, -, rfl⟩ := Timeline.mem_dues.1 hmem
        exact hleft _ hr.sound hn e he
    rw [LoaderMachine.expire, if_neg (by rw [hnot]; exact Bool.false_ne_true)]
    exact ht
  | run hp hrun _ ih =>
    have hfirst := hpop _ _ _ hp
    obtain ⟨_, hr'⟩ := hr.fires hfirst hrun
    rcases ht.run hr.hidesMade hfirst hrun with ⟨hdeadline, hstart⟩ | hsame
    · have hpast : m.deadline.any past = true := by
        rw [hdeadline]
        exact htaken _ _ _ hp
      rw [LoaderMachine.expire, if_pos hpast]
      exact ih hr' hstart
    · exact ih hr' hsame

theorem Tracks.advance {dt : Duration} {entries : List (Entry Task)} (ht : Tracks d m)
    (hr : Run (new config) h d) (ha : (d.advance dt).result = .ok (entries, d')) :
    Tracks d' (m.expire fun due => due.nanos ≤ d.now.nanos + dt.nanos) := by
  obtain ⟨limit, d₁, hlimit, hd, rfl⟩ := result_advance_eq_ok.1 ha
  rw [← Duration.add?_eq_some_iff.1 hlimit]
  refine (agree_waited .loader d₁ limit).tracks (hd.tracks (takesFirst_popDue limit) ?_ ?_ hr ht)
  · intro t e t' hp
    exact decide_eq_true (Timeline.popDue?_eq_some_iff.1 hp).2
  · intro t hs hn e he
    have hlt := hs.lt_due (Timeline.popDue?_eq_none_iff.1 hn) e he
    rw [Duration.lt_def] at hlt
    exact decide_eq_false (Nat.not_le.2 hlt)

theorem Tracks.runUntilIdle {entries : List (Entry Task)} (ht : Tracks d m)
    (hr : Run (new config) h d) (hi : d.runUntilIdle.result = .ok (entries, d')) :
    Tracks d' (m.expire fun _ => true) := by
  refine (result_runUntilIdle_eq_ok.1 hi).tracks takesFirst_pop (fun _ _ _ _ => rfl) ?_ hr ht
  intro t _ hn e he
  rw [Timeline.pop?_eq_none_iff.1 hn] at he
  cases he

/-! ## Every operation -/

theorem Tracks.perform {op : Operation} {answer : Answer} (ht : Tracks d m)
    (hr : Run (new config) h d) (hop : (d.perform op).result = .ok (answer, d')) :
    Tracks d' (m.step config.loaderAutoIdle (d.now, op)) := by
  rw [← hr.config_eq]
  cases op with
  | mount | unmount | draw | initCharts | startLoadingBar =>
    exact (agree_of_perform hop rfl).1.tracks ht
  | loaderStart | loaderHide =>
    obtain ⟨_, hmove, he⟩ := Work.result_bind_eq_ok.1 hop
    cases he
    exact tracks_of_moveLoader hr.hidesMade hmove
  | loaderStep =>
    obtain ⟨_, hmove, he⟩ := Work.result_bind_eq_ok.1 hop
    cases he
    rw [LoaderMachine.step, ← ht.state]
    exact tracks_of_moveLoader hr.hidesMade hmove
  | loaderFinishSuccess =>
    obtain ⟨_, hfinish, he⟩ := Work.result_bind_eq_ok.1 hop
    cases he
    exact tracks_of_loaderFinishSuccess hr hfinish
  | advance dt =>
    obtain ⟨⟨entries, _⟩, ha, he⟩ := Work.result_bind_eq_ok.1 hop
    cases he
    exact ht.advance hr ha
  | runUntilIdle =>
    obtain ⟨⟨entries, _⟩, hi, he⟩ := Work.result_bind_eq_ok.1 hop
    cases he
    exact ht.runUntilIdle hr hi

theorem Tracks.performAll {ops : List Operation} {answers : List Answer} (ht : Tracks d m)
    (hr : Run (new config) h d) (hops : (d.performAll ops).result = .ok (answers, d')) :
    Tracks d' ((d.timed ops).foldl (LoaderMachine.step config.loaderAutoIdle) m) := by
  induction ops generalizing h d m answers with
  | nil =>
    cases hops
    exact ht
  | cons op ops ih =>
    obtain ⟨⟨answer, d₁⟩, hop, hrest⟩ := Work.result_bind_eq_ok.1 hops
    obtain ⟨⟨_, _⟩, hops', he⟩ := Work.result_bind_eq_ok.1 hrest
    cases he
    rw [timed]
    simp only [hop, List.foldl_cons]
    exact ih (ht.perform hr hop) (hr.append (run_of_perform hop)) hops'

/-! ## Which success is hidden -/

section

variable {e : Entry Task} {task : Task} {deed : Deed} {generation : Nat}

/-- A task that is to hide the loader waited before, or it is scheduled for the success that is
shown now. -/
theorem Step.mem_of_autoIdle (hs : Step d deed d') (he : e ∈ d'.timeline.pending)
    (ht : e.task = .autoIdle generation) :
    e ∈ d.timeline.pending ∨
      deed = .finishLoader ∧ e.order = d.timeline.scheduled ∧
        d.now.add? d.config.loaderAutoIdle = some e.due ∧
          d'.loader = (d.withLoader .success).loader := by
  rcases hs.scheduled he with hold | hnew
  · exact .inl hold
  · cases hnew with
    | clear | redraw | tick => cases ht
    | autoIdle =>
      cases hs with
      | finishLoader hdue =>
        rcases Timeline.mem_push.1 he with heq | hold
        · cases heq
          exact .inr ⟨rfl, rfl, hdue, rfl⟩
        · rw [timeline_withLoader] at hold
          exact .inl hold

theorem Ran.loader_eq_or_lt (hran : d.Ran task d') :
    d'.loader = d.loader ∨ d.loader.generation < d'.loader.generation := by
  cases hran with
  | redraw hd => cases hd <;> exact .inl rfl
  | stale | clear | tick | lastTick => exact .inl rfl
  | autoIdle => exact .inr (Nat.lt_succ_self _)

theorem Step.loader_eq_or_lt (hs : Step d deed d') :
    d'.loader = d.loader ∨ d.loader.generation < d'.loader.generation := by
  cases hs with
  | draw h => cases h <;> exact .inl rfl
  | fire hp hr h => exact h.loader_eq_or_lt
  | moveLoader | finishLoader => exact .inr (Nat.lt_succ_self _)
  | mount | unmount | planRedraw | startBar | takeRedraw | wait => exact .inl rfl

/-- A task that is to hide the loader was scheduled when a success was shown, and as long as it is
for the last move, this success is what the loader still shows. -/
theorem Run.hide_scheduled (hr : Run (new config) h d) (he : e ∈ d.timeline.pending)
    (ht : e.task = .autoIdle generation) :
    ∃ m ∈ h, m.deed = .finishLoader ∧ e.order = m.before.timeline.scheduled ∧
      m.before.now.add? config.loaderAutoIdle = some e.due ∧
        (generation = d.loader.generation →
          d.loader = (m.before.withLoader .success).loader) := by
  induction hr with
  | nil => cases he
  | @snoc h d d' deed hr hs ih =>
    rcases hs.mem_of_autoIdle he ht with hold | ⟨hdeed, horder, hdue, hloader⟩
    · obtain ⟨m, hm, hdeed, horder, hdue, hsame⟩ := ih hold
      refine ⟨m, List.mem_append_left _ hm, hdeed, horder, hdue, fun hcurrent => ?_⟩
      have hle := hr.autoIdle_le hold ht
      rcases hs.loader_eq_or_lt with heq | hlt
      · rw [heq] at hcurrent ⊢
        exact hsame hcurrent
      · omega
    · rw [hr.config_eq] at hdue
      exact ⟨⟨d, deed⟩, List.mem_append_right _ (List.mem_singleton_self _), hdeed, horder, hdue,
        fun _ => hloader⟩

end

/-- The machine tells what the loader shows after any operations.  And if a task moves the loader,
then it was scheduled when the success was shown that the loader still shows, and it hides it when
its time has come. -/
theorem loader_refines_machine {ops : List Operation} {answers : List Answer}
    (h : ((new config).performAll ops).result = .ok (answers, d)) :
    d.loader.state = (((new config).timed ops).foldl
      (LoaderMachine.step config.loaderAutoIdle) .start).state ∧
    ∀ earlier before entry later generation after,
      (new config).history ops = earlier ++ ⟨before, .fire entry⟩ :: later →
        entry.task = .autoIdle generation →
          (before.popped.run entry.task).result = .ok after → after.loader ≠ before.loader →
            ∃ m ∈ earlier, m.deed = .finishLoader ∧
              entry.order = m.before.timeline.scheduled ∧
              m.before.now.add? config.loaderAutoIdle = some entry.due ∧
              before.loader = (m.before.withLoader .success).loader ∧
              before.popped.now = entry.due ∧ after.loader.state = .idle := by
  refine ⟨?_, ?_⟩
  · have hstart : Tracks (new config) .start := ⟨rfl, rfl⟩
    exact (hstart.performAll .nil h).state
  intro earlier before entry later generation after hm ht hrun hmoved
  have hrun' := run_of_performAll h
  rw [hm] at hrun'
  obtain ⟨hr, _, hs⟩ := hrun'.split
  obtain ⟨timeline, hp⟩ : ∃ timeline, before.timeline.pop? = some (entry, timeline) := by
    cases hs with
    | fire hp => exact ⟨_, hp⟩
    | takeRedraw hp => exact ⟨_, hp⟩
  rw [popped_eq hp, ht] at hrun
  rw [popped_eq hp]
  -- a stale task would not have moved the loader
  obtain rfl : generation = before.loader.generation := by
    refine Classical.not_not.1 fun hne => hmoved ?_
    have hstale : { before with timeline }.Stale (.autoIdle generation) := hne
    rw [result_run_of_stale hstale, Except.ok.injEq] at hrun
    rw [← hrun]
  have hidden : ({ before with timeline }.run (.autoIdle before.loader.generation)).result = _ :=
    result_run_autoIdle { before with timeline }
  rw [hidden, Except.ok.injEq] at hrun
  obtain ⟨m, hmem, hdeed, horder, hdue, hsame⟩ := hr.hide_scheduled (Timeline.mem_of_pop? hp) ht
  refine ⟨m, hmem, hdeed, horder, hdue, hsame rfl, hr.sound.now_pop hp, ?_⟩
  rw [← hrun]
  rfl

def shownAgain : List Operation := [
  .loaderFinishSuccess,
  .advance (.ofMillis 400),
  .loaderFinishSuccess,
  .advance (.ofMillis 700),
  .advance (.ofMillis 300)]

/-- The second success outlives the deadline of the first, and it is hidden at its own. -/
theorem loader_outlives_first_deadline :
    (∃ answers d, ((new .default).performAll shownAgain).result = .ok (answers, d) ∧
      d.loader.state = .idle) ∧
    ∃ earlier before entry later after,
      (new .default).history shownAgain = earlier ++ ⟨before, .fire entry⟩ :: later ∧
        (before.popped.run entry.task).result = .ok after ∧ after.loader ≠ before.loader ∧
          ∃ m ∈ earlier, m.deed = .finishLoader ∧ entry.order = m.before.timeline.scheduled ∧
            before.loader = (m.before.withLoader .success).loader ∧
            before.popped.now = entry.due := by
  obtain ⟨hstate, hhides⟩ := @loader_refines_machine .default _ shownAgain _ rfl
  obtain ⟨earlier, before, entry, later, generation, after, hm, ht, hrun, hmoved⟩ :
      ∃ earlier before entry later generation after,
        (new .default).history shownAgain = earlier ++ ⟨before, .fire entry⟩ :: later ∧
          entry.task = .autoIdle generation ∧
            (before.popped.run entry.task).result = .ok after ∧ after.loader ≠ before.loader :=
    ⟨((new .default).history shownAgain).take 5, _, _, ((new .default).history shownAgain).drop 6,
      _, _, rfl, rfl, rfl, by decide⟩
  obtain ⟨m, hmem, hdeed, horder, -, hsame, hnow, -⟩ :=
    hhides earlier before entry later generation after hm ht hrun hmoved
  exact ⟨⟨_, _, rfl, hstate⟩, earlier, before, entry, later, after, hm, hrun, hmoved, m, hmem,
    hdeed, horder, hsame, hnow⟩

end Dashboard

end Sparkboard
