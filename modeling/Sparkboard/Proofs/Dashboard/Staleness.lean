import Sparkboard.Proofs.Dashboard.ChartRuns
import Sparkboard.Proofs.Dashboard.History
import Sparkboard.Proofs.Dashboard.TimelineRuns
/-!
# Tasks that come too late

A task is superseded if what it was scheduled for has changed since.  A superseded task does nothing
when it comes due, with one exception: the second draw that a batch schedules names no draw, so it
is made whatever was drawn, mounted or unmounted meanwhile, if a chart is mounted at all
(`result_run_superseded_iff`).
-/

namespace Sparkboard

/-- Does the host move the loader? -/
def Deed.MovesLoader : Deed → Prop
  | .moveLoader _ | .finishLoader => True
  | _ => False

/-- Has what the task was scheduled for changed since?  What was done after the task was scheduled
is told by the number of the task. -/
def Superseded (earlier : History) (d : Dashboard) (entry : Entry Task) : Prop :=
  match entry.task with
  | .clearAnimation key _ | .redraw key _ _ =>
    ∃ m ∈ earlier, entry.order < m.before.timeline.scheduled ∧ (m.chartChange? key).isSome
  | .autoIdle _ =>
    ∃ m ∈ earlier, entry.order < m.before.timeline.scheduled ∧ m.deed.MovesLoader
  | .loadingTick session => d.sessions.get? session = none

namespace Dashboard

variable {config : Config} {h : History} {d d' : Dashboard} {key : String} {e : Entry Task}
  {deed : Deed}

/-! ## What is scheduled -/

/-- What a task that was just scheduled is about. -/
def Current (d : Dashboard) : Task → Prop
  | .redraw key _ values => key = employeeKey ∧ values = refreshSample
  | .autoIdle generation => generation = d.loader.generation
  | .clearAnimation .. | .loadingTick _ => True

theorem Scheduled.current (h : d.Scheduled deed e) : d.Current e.task := by
  cases h with
  | clear | tick => trivial
  | redraw => exact ⟨rfl, rfl⟩
  | autoIdle => rfl

/-- A task that waits waited before, or it was just scheduled. -/
theorem Step.current (hs : Step d deed d') (he : e ∈ d'.timeline.pending) :
    e ∈ d.timeline.pending ∨ d'.Current e.task :=
  (hs.scheduled he).imp_right Scheduled.current

/-- The only draw that is scheduled is the second one of a batch. -/
theorem Run.redraw_scheduled (hr : Run (new config) h d) {labels : List String}
    {values : List Float} (he : e ∈ d.timeline.pending) (ht : e.task = .redraw key labels values) :
    key = employeeKey ∧ values = refreshSample := by
  induction hr with
  | nil => cases he
  | snoc _ hs ih =>
    rcases hs.current he with he | hc
    · exact ih he
    · rw [ht] at hc
      exact hc

/-! ## Clears of earlier draws -/

/-- Whatever changes a chart, it does not show an earlier draw again. -/
theorem Affects.stale {change : Option ChartChange} {generation : Nat}
    (ha : Affects d key change d') (hpos : 1 ≤ generation)
    (hle : generation ≤ d.lastGeneration key)
    (hs : change.isSome ∨ d.Stale (.clearAnimation key generation)) :
    d'.Stale (.clearAnimation key generation) := by
  intro target hc
  cases ha with
  | nothing hsame =>
    rw [hsame.chart] at hc
    rcases hs with hs | hs
    · cases hs
    · exact hs target hc
  | mounted given =>
    unfold mount at hc
    rw [Table.get?_insert, if_pos rfl, Option.some.injEq] at hc
    rw [← hc]
    exact Nat.ne_of_lt hpos
  | unmounted =>
    unfold unmount at hc
    rw [Table.get?_erase, if_pos rfl] at hc
    cases hc
  | drawn =>
    rw [get?_drawn, Option.some.injEq] at hc
    rw [← hc]
    show d.lastGeneration key + 1 ≠ generation
    omega
  | @cleared entry timeline shown hp ht hshown =>
    rw [Table.get?_insert, if_pos rfl, Option.some.injEq] at hc
    rw [← hc]
    rcases hs with hs | hs
    · cases hs
    · exact hs shown hshown
  | missed =>
    rcases hs with hs | hs
    · cases hs
    · exact hs target hc

/-- A clear is stale once something happened to its chart. -/
theorem Run.stale_clear (hr : Run (new config) h d) (he : e ∈ d.clears key) {m : Moment}
    (hm : m ∈ h) (hlater : e.order < m.before.timeline.scheduled)
    (hchange : (m.chartChange? key).isSome) : d.Stale e.task := by
  induction hr with
  | nil => cases hm
  | @snoc h d d' deed hr hs ih =>
    obtain ⟨hpending, generation, ht⟩ := mem_clears.1 he
    have hold : e ∈ d.clears key :=
      mem_clears.2 ⟨hr.mem_pending_of_lt hs hpending hm hlater, generation, ht⟩
    obtain ⟨x, hx, hxe, -⟩ := hr.clear_scheduled key e hold
    rw [ht, Task.clearAnimation.injEq] at hxe
    have hdated := hr.generation_le hx
    rw [← hxe.2] at hdated
    rw [ht] at ih ⊢
    refine (affects_of_step hs key).stale hdated.1 hdated.2 ?_
    rcases List.mem_append.1 hm with hm | hm
    · exact .inr (ih hold hm)
    · rw [List.mem_singleton] at hm
      rw [hm] at hchange
      exact .inl hchange

/-! ## Loaders that have moved on -/

theorem Ran.loader_le {task : Task} (h : d.Ran task d') :
    d.loader.generation ≤ d'.loader.generation := by
  cases h with
  | redraw hd => cases hd <;> exact Nat.le_refl _
  | stale | clear | tick | lastTick => exact Nat.le_refl _
  | autoIdle => exact Nat.le_succ _

theorem Step.loader_le (hs : Step d deed d') : d.loader.generation ≤ d'.loader.generation := by
  cases hs with
  | draw h => cases h <;> exact Nat.le_refl _
  | fire hp hr h => exact h.loader_le
  | moveLoader | finishLoader => exact Nat.le_succ _
  | mount | unmount | planRedraw | startBar | takeRedraw | wait => exact Nat.le_refl _

theorem Step.loader_lt (hs : Step d deed d') (hd : deed.MovesLoader) :
    d.loader.generation < d'.loader.generation := by
  cases hs with
  | moveLoader | finishLoader => exact Nat.lt_succ_self _
  | mount | unmount | draw | planRedraw | startBar | fire | takeRedraw | wait => exact hd.elim

theorem Run.autoIdle_le (hr : Run (new config) h d) (he : e ∈ d.timeline.pending)
    {generation : Nat} (ht : e.task = .autoIdle generation) :
    generation ≤ d.loader.generation := by
  induction hr with
  | nil => cases he
  | snoc _ hs ih =>
    rcases hs.current he with hold | hc
    · exact Nat.le_trans (ih hold) hs.loader_le
    · rw [ht] at hc
      exact Nat.le_of_eq hc

/-- A task to hide the loader is for an earlier move once the host has moved the loader. -/
theorem Run.autoIdle_lt (hr : Run (new config) h d) (he : e ∈ d.timeline.pending)
    {generation : Nat} (ht : e.task = .autoIdle generation) {m : Moment} (hm : m ∈ h)
    (hlater : e.order < m.before.timeline.scheduled) (hmoves : m.deed.MovesLoader) :
    generation < d.loader.generation := by
  induction hr with
  | nil => cases hm
  | @snoc h d d' deed hr hs ih =>
    have hold := hr.mem_pending_of_lt hs he hm hlater
    rcases List.mem_append.1 hm with hm | hm
    · exact Nat.lt_of_lt_of_le (ih hold hm) hs.loader_le
    · rw [List.mem_singleton] at hm
      rw [hm] at hmoves
      exact Nat.lt_of_le_of_lt (hr.autoIdle_le hold ht) (hs.loader_lt hmoves)

/-! ## Redraws -/

/-- The second draw of a batch is refused unless there are labels for all slots and a chart. -/
theorem checkDraw_refreshSample (d : Dashboard) (labels : List String) (key : String) :
    (∃ e, d.checkDraw labels refreshSample key = .error e) ↔
      ¬(labels.length = Slots.count ∧ (d.target? key).isSome) := by
  have hseries : ∃ series, Series.ofList refreshSample = .ok series := ⟨_, rfl⟩
  obtain ⟨series, hs⟩ := hseries
  unfold checkDraw target?
  rw [hs, ← Slots.ofList?_isSome_iff]
  unfold LabelSet.ofList
  cases Slots.ofList? labels with
  | none =>
    constructor
    · intro _ hex
      obtain ⟨h, -⟩ := hex
      cases h
    · intro _
      exact ⟨_, rfl⟩
  | some texts =>
    cases d.charts.get? key with
    | none =>
      constructor
      · intro _ hex
        obtain ⟨-, h⟩ := hex
        cases h
      · intro _
        exact ⟨_, rfl⟩
    | some target =>
      constructor
      · intro hex
        obtain ⟨_, h⟩ := hex
        cases h
      · intro h
        exact absurd ⟨rfl, rfl⟩ h

/-- A redraw changes nothing exactly if it is refused. -/
theorem result_run_redraw_iff (d : Dashboard) (labels : List String) (values : List Float)
    (key : String) :
    (d.run (.redraw key labels values)).result = .ok d ↔
      ∃ e, d.checkDraw labels values key = .error e := by
  cases hc : d.checkDraw labels values key with
  | error e =>
    constructor
    · intro _
      exact ⟨e, rfl⟩
    · intro _
      exact Work.result_bind_eq_ok.2 ⟨_, result_draw_of_error hc, rfl⟩
  | ok found =>
    obtain ⟨texts, series, target⟩ := found
    constructor
    · intro h
      obtain ⟨⟨outcome, d₁⟩, hd, he⟩ := Work.result_bind_eq_ok.1 h
      obtain ⟨due, -, -, rfl⟩ := (result_draw_of_ok hc).1 hd
      have hsame : d.drawn key texts series target due = d := Except.ok.inj he
      have hcount : (d.drawn key texts series target due).lastGeneration key =
          d.lastGeneration key + 1 := lastGeneration_drawn texts series target due
      rw [hsame] at hcount
      omega
    · intro hex
      obtain ⟨_, h⟩ := hex
      cases h

/-! ## Superseded tasks -/

/-- Whether a task comes too late has nothing to do with the tasks that wait. -/
theorem stale_timeline (d : Dashboard) (timeline : Timeline Task) (task : Task) :
    { d with timeline }.Stale task ↔ d.Stale task := by
  cases task <;> exact Iff.rfl

theorem Run.stale_of_superseded (hr : Run (new config) h d) (he : e ∈ d.timeline.pending)
    (hn : ∀ key labels values, e.task ≠ .redraw key labels values) (hs : Superseded h d e) :
    d.Stale e.task := by
  unfold Superseded at hs
  cases ht : e.task with
  | clearAnimation key generation =>
    simp only [ht] at hs
    obtain ⟨m, hm, hlater, hchange⟩ := hs
    rw [← ht]
    exact hr.stale_clear (mem_clears.2 ⟨he, generation, ht⟩) hm hlater hchange
  | redraw key labels values => exact absurd ht (hn key labels values)
  | autoIdle generation =>
    simp only [ht] at hs
    obtain ⟨m, hm, hlater, hmoves⟩ := hs
    exact Nat.ne_of_lt (hr.autoIdle_lt he ht hm hlater hmoves)
  | loadingTick session =>
    simp only [ht] at hs
    exact hs

/-- When a superseded task comes due, it is taken off the timeline, the clock moves to its due time,
and nothing else changes, except by the second draw of a batch of four labels, if a chart of the
employees is mounted. -/
theorem result_run_superseded_iff {ops : List Operation} {answers : List Answer}
    {before : Dashboard} {earlier later : History} {entry : Entry Task}
    (h : ((new config).performAll ops).result = .ok (answers, d))
    (hm : (new config).history ops = earlier ++ ⟨before, .fire entry⟩ :: later)
    (hs : Superseded earlier before entry) :
    (before.popped.run entry.task).result = .ok before.popped ↔
      ¬∃ labels, entry.task = .redraw employeeKey labels refreshSample ∧
        labels.length = Slots.count ∧ (before.target? employeeKey).isSome := by
  have hrun := run_of_performAll h
  rw [hm] at hrun
  obtain ⟨hr, d₁, hstep⟩ := hrun.split
  obtain ⟨timeline, hp⟩ : ∃ timeline, before.timeline.pop? = some (entry, timeline) := by
    cases hstep with
    | fire hp | takeRedraw hp => exact ⟨_, hp⟩
  have he : entry ∈ before.timeline.pending := by
    rw [(Timeline.pop?_eq_some_iff.1 hp).1]
    exact List.mem_cons_self ..
  rw [popped_eq hp]
  by_cases hn : ∀ key labels values, entry.task ≠ .redraw key labels values
  · have hstale := hr.stale_of_superseded he hn hs
    constructor
    · intro _ hex
      obtain ⟨labels, ht, -⟩ := hex
      exact hn _ _ _ ht
    · intro _
      exact result_run_of_stale ((stale_timeline before timeline _).2 hstale)
  · simp only [Classical.not_forall, Classical.not_not] at hn
    obtain ⟨key, labels, values, ht⟩ := hn
    obtain ⟨rfl, rfl⟩ := hr.redraw_scheduled he ht
    rw [ht, result_run_redraw_iff, checkDraw_refreshSample]
    constructor
    · intro hrefused hex
      obtain ⟨labels', heq, hlength, hmounted⟩ := hex
      cases heq
      exact hrefused ⟨hlength, hmounted⟩
    · intro hnot hex
      obtain ⟨hlength, hmounted⟩ := hex
      exact hnot ⟨labels, rfl, hlength, hmounted⟩

/-- The employees are drawn again before the second draw of the batch comes due. -/
def overtaken : List Operation := [
  .mount employeeKey .fresh,
  .initCharts ⟨["1", "2", "3", "4"], [1.0, 1.0, 1.0, 1.0], [1.0, 1.0, 1.0, 1.0],
    [1.0, 1.0, 1.0, 1.0]⟩,
  .draw ["1", "2", "3", "4"] [9.0, 8.0, 7.0, 6.0] employeeKey,
  .advance (.ofMillis 1500)]

/-- The clear of the first draw of the employees comes due after their second draw. -/
theorem result_run_overtaken_clear :
    ∃ earlier before entry later,
      (new .default).history overtaken = earlier ++ ⟨before, .fire entry⟩ :: later ∧
        Superseded earlier before entry ∧
          (before.popped.run entry.task).result = .ok before.popped := by
  obtain ⟨earlier, before, entry, later, hm, ht, hs⟩ : ∃ earlier before entry later,
      (new .default).history overtaken = earlier ++ ⟨before, .fire entry⟩ :: later ∧
        entry.task = .clearAnimation employeeKey 1 ∧ Superseded earlier before entry := by
    refine ⟨((new .default).history overtaken).take 6, _, _,
      ((new .default).history overtaken).drop 7, rfl, rfl, ?_⟩
    exact ⟨_, List.mem_of_getElem? (i := 5) rfl, by decide, rfl⟩
  refine ⟨earlier, before, entry, later, hm, hs, (result_run_superseded_iff rfl hm hs).2 ?_⟩
  intro hex
  obtain ⟨labels, hredraw, -⟩ := hex
  rw [ht] at hredraw
  cases hredraw

/-- The second draw of the batch comes due after a draw of the employees and is made all the same.
-/
theorem not_result_run_superseded :
    ¬∀ (config : Config) (ops : List Operation) (answers : List Answer) (d before : Dashboard)
      (earlier later : History) (entry : Entry Task),
      ((new config).performAll ops).result = .ok (answers, d) →
        (new config).history ops = earlier ++ ⟨before, .fire entry⟩ :: later →
          Superseded earlier before entry →
            (before.popped.run entry.task).result = .ok before.popped := by
  intro hnothing
  obtain ⟨earlier, before, entry, later, hm, hdrawn, hs⟩ : ∃ earlier before entry later,
      (new .default).history overtaken = earlier ++ ⟨before, .fire entry⟩ :: later ∧
        (before.popped.run entry.task).result.map (·.lastGeneration employeeKey) ≠
          .ok (before.popped.lastGeneration employeeKey) ∧ Superseded earlier before entry := by
    refine ⟨((new .default).history overtaken).take 8, _, _,
      ((new .default).history overtaken).drop 9, rfl, by decide, ?_⟩
    exact ⟨_, List.mem_of_getElem? (i := 5) rfl, by decide, rfl⟩
  rw [hnothing .default overtaken _ _ before earlier later entry rfl hm hs] at hdrawn
  exact hdrawn rfl

end Dashboard

end Sparkboard
