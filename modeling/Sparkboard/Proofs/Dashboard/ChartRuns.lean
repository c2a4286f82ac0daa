import Mathlib.Data.List.Nodup
import Sparkboard.Proofs.Dashboard.ChartSteps
import Sparkboard.Proofs.Dashboard.Run
import Sparkboard.Proofs.Table.Order
/-!
# What holds of a chart in every run

Everything about one chart that a run preserves, each statement by induction on the run with the
cases of `Affects`:

- `Run.numbered`: the draws of a key are numbered from one, whatever is mounted under it.
- `Run.clear_scheduled` and `Run.clear_waits`: the clears that wait are those of the draws whose
  time is not over, each due when the time of its draw is over.
- `Run.waiting_clear_le_one`: no clear waits twice.
- `Run.shows`: the chart shows what happened to it last.
- `Run.animated_iff`: a chart that was drawn is animated as long as the clear of that draw waits.
- `Run.sorted_charts`: the charts are in the order of their keys.
-/

namespace Sparkboard

/-! ## Histories that grow -/

/-- The draw, if the change is one. -/
def ChartChange.drawing? : ChartChange → Option Drawing
  | .drawn x => some x
  | _ => none

theorem Moment.drawing?_eq (m : Moment) (key : String) :
    m.drawing? key = (m.chartChange? key).bind ChartChange.drawing? := by
  cases hd : m.deed with
  | mount k | unmount k =>
    unfold drawing? chartChange?
    rw [hd]
    dsimp only
    split <;> rfl
  | draw =>
    unfold chartChange?
    rw [hd]
    dsimp only
    cases m.drawing? key <;> rfl
  | planRedraw | moveLoader | finishLoader | startBar | fire | wait =>
    unfold chartChange?
    rw [hd]
    dsimp only
    cases m.drawing? key <;> rfl

namespace History

variable {key : String} {x : Drawing}

theorem drawings_eq (h : History) (key : String) :
    h.drawings key = (h.changes key).filterMap ChartChange.drawing? := by
  unfold drawings changes
  rw [List.filterMap_filterMap]
  exact List.filterMap_congr fun m _ => m.drawing?_eq key

theorem changes_snoc (h : History) (m : Moment) (key : String) :
    History.changes (h ++ [m]) key = h.changes key ++ (m.chartChange? key).toList := by
  unfold changes
  rw [List.filterMap_append]
  cases hm : m.chartChange? key with
  | none => simp only [List.filterMap_cons, hm, List.filterMap_nil, Option.toList_none]
  | some change => simp only [List.filterMap_cons, hm, List.filterMap_nil, Option.toList_some]

theorem drawings_snoc (h : History) (m : Moment) (key : String) :
    History.drawings (h ++ [m]) key =
      h.drawings key ++ ((m.chartChange? key).bind ChartChange.drawing?).toList := by
  rw [drawings_eq, changes_snoc, List.filterMap_append, drawings_eq]
  cases m.chartChange? key with
  | none => rfl
  | some change => cases change <;> rfl

/-- If a draw was what happened last to a chart, no later draw came off. -/
theorem lastDrawing?_of_lastChange? {h : History} (hl : h.lastChange? key = some (.drawn x)) :
    h.lastDrawing? key = some x := by
  obtain ⟨before, hb⟩ := List.getLast?_eq_some_iff.1 hl
  unfold lastDrawing?
  rw [drawings_eq, hb, List.filterMap_append]
  exact List.getLast?_concat

end History

namespace Dashboard

variable {config : Config} {h : History} {d d' : Dashboard} {key : String} {x y : Drawing}

theorem Ran.config_eq {task : Task} (h : d.Ran task d') : d'.config = d.config := by
  cases h with
  | redraw h => cases h <;> rfl
  | autoIdle => exact config_withLoader d .idle
  | stale | clear | tick | lastTick => rfl

theorem Step.config_eq {deed : Deed} (hs : Step d deed d') : d'.config = d.config := by
  cases hs with
  | draw h => cases h <;> rfl
  | fire hp hr h => exact h.config_eq
  | moveLoader state => exact config_withLoader d state
  | finishLoader => exact config_withLoader d .success
  | mount | unmount | planRedraw | startBar | takeRedraw | wait => rfl

theorem Run.config_eq (hr : Run (new config) h d) : d.config = config := by
  induction hr with
  | nil => rfl
  | snoc _ hs ih => rw [hs.config_eq, ih]

/-! ## The numbers of the draws -/

theorem Run.numbered (hr : Run (new config) h d) (key : String) :
    (h.drawings key).map Drawing.generation = List.range' 1 (d.lastGeneration key) := by
  induction hr with
  | nil => rfl
  | @snoc h d d' deed hr hs ih =>
    have ha := affects_of_step hs key
    rw [History.drawings_snoc, List.map_append, ih]
    generalize Moment.chartChange? ⟨d, deed⟩ key = change at ha ⊢
    cases ha with
    | nothing hsame => rw [hsame.count]; exact List.append_nil _
    | mounted | unmounted | cleared | missed => exact List.append_nil _
    | drawn =>
      rw [lastGeneration_drawn, List.range'_1_concat, Nat.add_comm 1]
      rfl

theorem Run.generation_le (hr : Run (new config) h d) (hx : x ∈ h.drawings key) :
    1 ≤ x.generation ∧ x.generation ≤ d.lastGeneration key := by
  have hmem : x.generation ∈ List.range' 1 (d.lastGeneration key) := by
    rw [← hr.numbered key]
    exact List.mem_map_of_mem hx
  rw [List.mem_range'_1] at hmem
  omega

theorem Run.drawing_unique (hr : Run (new config) h d) (hx : x ∈ h.drawings key)
    (hy : y ∈ h.drawings key) (he : x.generation = y.generation) : x = y := by
  have hn : ((h.drawings key).map Drawing.generation).Nodup := by
    rw [hr.numbered key]
    exact List.nodup_range'
  exact List.inj_on_of_nodup_map hn hx hy he

/-! ## The clears that wait -/

/-- A clear that waits is that of a draw, and due when the time of the draw is over. -/
theorem Run.clear_scheduled (hr : Run (new config) h d) (key : String) :
    ∀ e ∈ d.clears key, ∃ x ∈ h.drawings key, e.task = .clearAnimation key x.generation ∧
      x.time.add? config.animator.clearAfter = some e.due := by
  induction hr with
  | nil =>
    intro e he
    cases he
  | @snoc h d d' deed hr hs ih =>
    have ha := affects_of_step hs key
    rw [History.drawings_snoc]
    generalize Moment.chartChange? ⟨d, deed⟩ key = change at ha ⊢
    intro e he
    have hold : e ∈ d.clears key →
        ∃ x ∈ h.drawings key ++ (change.bind ChartChange.drawing?).toList,
          e.task = .clearAnimation key x.generation ∧
            x.time.add? config.animator.clearAfter = some e.due := by
      intro he
      obtain ⟨x, hx, hxe⟩ := ih e he
      exact ⟨x, List.mem_append_left _ hx, hxe⟩
    cases ha with
    | nothing hsame =>
      rw [hsame.clears] at he
      exact hold he
    | mounted | unmounted => exact hold he
    | drawn hc hd =>
      rcases mem_clears_drawn.1 he with rfl | he
      · rw [hr.config_eq] at hd
        exact ⟨_, List.mem_append_right _ (List.mem_singleton_self _), rfl, hd⟩
      · exact hold he
    | cleared hp ht | missed hp ht =>
      refine hold ?_
      rw [clears_pop_clear hp ht]
      exact List.mem_cons_of_mem _ he

/-- The clear of a draw is due when the time of the draw is over. -/
theorem Run.clear_due (hr : Run (new config) h d) (hx : x ∈ h.drawings key) {due : Duration}
    (hd : x.time.add? config.animator.clearAfter = some due) {e : Entry Task}
    (he : e ∈ d.clears key) (ht : e.task = .clearAnimation key x.generation) : e.due = due := by
  obtain ⟨y, hy, hye, hdy⟩ := hr.clear_scheduled key e he
  rw [ht, Task.clearAnimation.injEq] at hye
  rw [hr.drawing_unique hx hy hye.2, hdy, Option.some.injEq] at hd
  exact hd

/-- Is the clear of a draw, due at `due`, still to come, or is its time over? -/
def ClearWaits (d : Dashboard) (key : String) (generation : Nat) (due : Duration) : Prop :=
  (∃ e ∈ d.clears key, e.task = .clearAnimation key generation) ∨ due ≤ d.now

theorem Run.clearWaits_pop (hr : Run (new config) h d) (hx : x ∈ h.drawings key) {due : Duration}
    (hd : x.time.add? config.animator.clearAfter = some due)
    (hw : d.ClearWaits key x.generation due) {entry : Entry Task} {timeline : Timeline Task}
    (hp : d.timeline.pop? = some (entry, timeline)) {generation : Nat}
    (ht : entry.task = .clearAnimation key generation) :
    { d with timeline }.ClearWaits key x.generation due := by
  rcases hw with ⟨e, he, hxe⟩ | hle
  · have he' := he
    rw [clears_pop_clear hp ht, List.mem_cons] at he'
    rcases he' with rfl | he'
    · right
      rw [← hr.clear_due hx hd he hxe]
      exact due_le_pop hp
    · exact .inl ⟨e, he', hxe⟩
  · exact .inr (Nat.le_trans hle (now_le_pop hp))

/-- The clear of every draw waits until the time of the draw is over. -/
theorem Run.clear_waits (hr : Run (new config) h d) (hx : x ∈ h.drawings key) :
    ∃ due, x.time.add? config.animator.clearAfter = some due ∧
      d.ClearWaits key x.generation due := by
  induction hr with
  | nil => cases hx
  | @snoc h d d' deed hr hs ih =>
    have ha := affects_of_step hs key
    rw [History.drawings_snoc, List.mem_append] at hx
    generalize Moment.chartChange? ⟨d, deed⟩ key = change at ha hx
    rcases hx with hx | hx
    · obtain ⟨due, hd, hw⟩ := ih hx
      refine ⟨due, hd, ?_⟩
      cases ha with
      | nothing hsame hn =>
        unfold ClearWaits at hw ⊢
        rw [hsame.clears]
        exact hw.imp_right fun hle => Nat.le_trans hle hn
      | mounted | unmounted => exact hw
      | drawn =>
        refine hw.imp_left ?_
        intro hex
        obtain ⟨e, he, hxe⟩ := hex
        exact ⟨e, mem_clears_drawn.2 (.inr he), hxe⟩
      | cleared hp ht | missed hp ht => exact hr.clearWaits_pop hx hd hw hp ht
    · cases ha with
      | nothing | mounted | unmounted | cleared | missed => cases hx
      | drawn hc hd =>
        rw [Option.bind_some, ChartChange.drawing?, Option.toList_some, List.mem_singleton] at hx
        subst hx
        rw [hr.config_eq] at hd
        exact ⟨_, hd, .inl ⟨_, mem_clears_drawn.2 (.inl rfl), rfl⟩⟩

theorem Run.waiting_clear_le_one (hr : Run (new config) h d) (key : String) (generation : Nat) :
    d.timeline.waiting (.clearAnimation key generation) ≤ 1 := by
  induction hr with
  | nil => exact Nat.zero_le 1
  | @snoc h d d' deed hr hs ih =>
    have ha := affects_of_step hs key
    generalize Moment.chartChange? ⟨d, deed⟩ key = change at ha
    cases ha with
    | nothing hsame =>
      rw [waiting_clear] at ih ⊢
      rw [hsame.clears]
      exact ih
    | mounted | unmounted => exact ih
    | drawn =>
      show (d.timeline.push _ _).waiting _ ≤ 1
      rw [Timeline.waiting_push]
      split
      · next heq =>
        -- the number of the draw is new
        rw [Task.clearAnimation.injEq] at heq
        have hnone : ¬0 < d.timeline.waiting (.clearAnimation key generation) := by
          rw [Timeline.waiting_pos_iff]
          intro hex
          obtain ⟨e, he, hxe⟩ := hex
          obtain ⟨x, hx, hxe', -⟩ := hr.clear_scheduled key e (mem_clears.2 ⟨he, _, hxe⟩)
          rw [hxe, Task.clearAnimation.injEq] at hxe'
          have := (hr.generation_le hx).2
          omega
        omega
      · exact ih
    | cleared hp | missed hp =>
      rw [Timeline.waiting_pop hp] at ih
      exact Nat.le_trans (Nat.le_add_right _ _) ih

/-! ## What the chart shows -/

/-- Does the dashboard show this change of the chart, as the last one that happened to it? -/
def ShowsChange (d : Dashboard) (key : String) : Option ChartChange → Prop
  | none | some .unmounted => d.charts.get? key = none
  | some (.mounted given) =>
    d.charts.get? key = some { given with root := { given.root with generation := 0 } }
  | some (.drawn x) =>
    ∃ target, d.charts.get? key = some target ∧ target.root.generation = x.generation

theorem ShowsChange.mounted_or_drawn {change : Option ChartChange} {target : ChartTarget}
    (hs : d.ShowsChange key change) (hc : d.charts.get? key = some target) :
    (∃ given, change = some (.mounted given) ∧
      target = { given with root := { given.root with generation := 0 } }) ∨
    ∃ x, change = some (.drawn x) ∧ target.root.generation = x.generation := by
  cases change with
  | none =>
    rw [ShowsChange, hc] at hs
    cases hs
  | some change =>
    cases change with
    | unmounted =>
      rw [ShowsChange, hc] at hs
      cases hs
    | mounted given =>
      rw [ShowsChange, hc, Option.some.injEq] at hs
      exact .inl ⟨given, rfl, hs⟩
    | drawn x =>
      obtain ⟨target', hc', hx⟩ := hs
      rw [hc, Option.some.injEq] at hc'
      subst hc'
      exact .inr ⟨x, rfl, hx⟩

/-- Taking off an animation is not seen in which change the chart shows. -/
theorem showsChange_clear {target : ChartTarget} {timeline : Timeline Task}
    {change : Option ChartChange} (hc : d.charts.get? key = some target)
    (hg : target.root.generation ≠ 0) (hs : d.ShowsChange key change) :
    { d with timeline, charts := d.charts.insert key target.still }.ShowsChange key change := by
  rcases hs.mounted_or_drawn hc with ⟨given, -, htarget⟩ | ⟨x, rfl, hx⟩
  · rw [htarget] at hg
    exact absurd rfl hg
  · refine ⟨target.still, ?_, hx⟩
    rw [Table.get?_insert, if_pos rfl]

/-- The chart of a key shows what happened to it last. -/
theorem Run.shows (hr : Run (new config) h d) (key : String) :
    d.ShowsChange key (h.lastChange? key) := by
  induction hr with
  | nil => rfl
  | @snoc h d d' deed hr hs ih =>
    have ha := affects_of_step hs key
    unfold History.lastChange? at ih ⊢
    rw [History.changes_snoc]
    generalize Moment.chartChange? ⟨d, deed⟩ key = change at ha ⊢
    cases ha with
    | nothing hsame =>
      rw [Option.toList_none, List.append_nil]
      unfold ShowsChange at ih ⊢
      rw [hsame.chart]
      exact ih
    | mounted target =>
      rw [Option.toList_some, List.getLast?_concat]
      unfold ShowsChange mount
      rw [Table.get?_insert, if_pos rfl]
    | unmounted =>
      rw [Option.toList_some, List.getLast?_concat]
      unfold ShowsChange unmount
      rw [Table.get?_erase, if_pos rfl]
    | drawn hc hd =>
      rw [Option.toList_some, List.getLast?_concat]
      exact ⟨_, get?_drawn _ _ _ _, rfl⟩
    | cleared hp ht hc =>
      rw [Option.toList_none, List.append_nil]
      refine showsChange_clear hc ?_ ih
      -- draws are numbered from one, so the chart was drawn
      have hmem := clears_pop_clear hp ht
      obtain ⟨x, hx, hxe, -⟩ := hr.clear_scheduled key _ (hmem ▸ List.mem_cons_self ..)
      rw [ht, Task.clearAnimation.injEq] at hxe
      have := (hr.generation_le hx).1
      omega
    | missed =>
      rw [Option.toList_none, List.append_nil]
      exact ih

/-- A chart that was drawn is animated as long as the clear of the draw that it shows waits. -/
theorem Run.animated_iff (hr : Run (new config) h d) {target : ChartTarget}
    (hc : d.charts.get? key = some target) (hg : target.root.generation ≠ 0) :
    target.root.animation.isSome ↔
      ∃ e ∈ d.clears key, e.task = .clearAnimation key target.root.generation := by
  induction hr generalizing target with
  | nil => cases hc
  | @snoc h d d' deed hr hs ih =>
    have ha := affects_of_step hs key
    generalize Moment.chartChange? ⟨d, deed⟩ key = change at ha
    cases ha with
    | nothing hsame =>
      rw [hsame.chart] at hc
      rw [hsame.clears]
      exact ih hc hg
    | mounted given =>
      unfold mount at hc
      rw [Table.get?_insert, if_pos rfl, Option.some.injEq] at hc
      rw [← hc] at hg
      exact absurd rfl hg
    | unmounted =>
      unfold unmount at hc
      rw [Table.get?_erase, if_pos rfl] at hc
      cases hc
    | drawn =>
      rw [get?_drawn, Option.some.injEq] at hc
      rw [← hc]
      constructor
      · intro _
        exact ⟨_, mem_clears_drawn.2 (.inl rfl), rfl⟩
      · intro _
        rfl
    | @cleared entry timeline shown hp ht hc' =>
      rw [Table.get?_insert, if_pos rfl, Option.some.injEq] at hc
      subst hc
      constructor
      · intro hsome
        cases hsome
      · intro hex
        obtain ⟨e, he, hxe⟩ := hex
        -- the clear that was taken off was the only one
        have hone := hr.waiting_clear_le_one key shown.root.generation
        rw [Timeline.waiting_pop hp, if_pos ht] at hone
        have hpos := Timeline.waiting_pos_iff.2 ⟨e, (mem_clears.1 he).1, hxe⟩
        exact absurd hone (Nat.not_le.2 (Nat.succ_lt_succ hpos))
    | @missed entry timeline generation hp ht hother =>
      have hne : entry.task ≠ .clearAnimation key target.root.generation := by
        rw [ht]
        intro heq
        rw [Task.clearAnimation.injEq] at heq
        exact hother target hc heq.2.symm
      rw [ih hc hg, clears_pop_clear hp ht]
      constructor
      · intro hex
        obtain ⟨e, he, hxe⟩ := hex
        rcases List.mem_cons.1 he with rfl | he
        · exact absurd hxe hne
        · exact ⟨e, he, hxe⟩
      · intro hex
        obtain ⟨e, he, hxe⟩ := hex
        exact ⟨e, List.mem_cons_of_mem _ he, hxe⟩

/-! ## The order of the charts -/

theorem Draws.sorted_charts {labels : List String} {values : List Float} {key : String}
    {outcome : Except ChartError Nat} (hd : d.Draws labels values key outcome d')
    (hs : d.charts.Sorted) : d'.charts.Sorted := by
  cases hd with
  | refused => exact hs
  | came => exact hs.insert key _

theorem Ran.sorted_charts {task : Task} (h : d.Ran task d') (hs : d.charts.Sorted) :
    d'.charts.Sorted := by
  cases h with
  | clear => exact hs.insert _ _
  | redraw hd => exact hd.sorted_charts hs
  | stale | tick | lastTick => exact hs
  | autoIdle =>
    unfold withLoader
    exact hs

theorem Run.sorted_charts (hr : Run (new config) h d) : d.charts.Sorted := by
  induction hr with
  | nil => exact .nil
  | snoc _ hs ih =>
    cases hs with
    | mount key target => exact ih.insert key _
    | unmount key => exact ih.erase key
    | draw hd => exact hd.sorted_charts ih
    | fire _ _ hran => exact hran.sorted_charts ih
    | planRedraw | startBar | takeRedraw | wait => exact ih
    | moveLoader | finishLoader =>
      unfold withLoader
      exact ih

end Dashboard

end Sparkboard
