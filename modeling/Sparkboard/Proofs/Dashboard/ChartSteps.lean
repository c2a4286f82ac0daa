import Sparkboard.Proofs.Dashboard.Step
/-!
# Steps seen from one chart

Of all that a dashboard does, few things concern the chart of one key: it is mounted, unmounted or
drawn, or a clear of it comes due.  `Affects` lists these, and `affects_of_step` says that any other
step leaves the chart, the number of its draws and its clears alone.
-/

namespace Sparkboard

/-- Is the task to take an animation off the chart of a key? -/
def Task.isClearOf (key : String) : Task → Bool
  | .clearAnimation k _ => k = key
  | _ => false

theorem Task.isClearOf_iff {key : String} {task : Task} :
    task.isClearOf key = true ↔ ∃ generation, task = .clearAnimation key generation := by
  cases task with
  | clearAnimation k generation =>
    unfold isClearOf
    rw [decide_eq_true_eq]
    constructor
    · rintro rfl
      exact ⟨generation, rfl⟩
    · intro hex
      obtain ⟨_, h⟩ := hex
      cases h
      rfl
  | redraw | autoIdle | loadingTick =>
    constructor
    · intro h
      cases h
    · intro hex
      obtain ⟨_, h⟩ := hex
      cases h

namespace Dashboard

variable {d d' : Dashboard} {key : String} {task : Task}

def clears (d : Dashboard) (key : String) : List (Entry Task) :=
  d.timeline.pending.filter fun e => e.task.isClearOf key

theorem mem_clears {e : Entry Task} :
    e ∈ d.clears key ↔
      e ∈ d.timeline.pending ∧ ∃ generation, e.task = .clearAnimation key generation := by
  unfold clears
  rw [List.mem_filter, Task.isClearOf_iff]

/-- Whether a clear waits is told by all that waits. -/
theorem exists_clear_iff {generation : Nat} :
    (∃ e ∈ d.clears key, e.task = .clearAnimation key generation) ↔
      ∃ e ∈ d.timeline.pending, e.task = .clearAnimation key generation := by
  constructor
  · intro hex
    obtain ⟨e, he, ht⟩ := hex
    exact ⟨e, (mem_clears.1 he).1, ht⟩
  · intro hex
    obtain ⟨e, he, ht⟩ := hex
    exact ⟨e, mem_clears.2 ⟨he, generation, ht⟩, ht⟩

theorem clears_push (due : Duration) (h : task.isClearOf key = false) :
    (d.push due task).clears key = d.clears key :=
  Timeline.filter_push h

theorem clears_pop {entry : Entry Task} {timeline : Timeline Task}
    (hp : d.timeline.pop? = some (entry, timeline)) (h : entry.task.isClearOf key = false) :
    { d with timeline }.clears key = d.clears key := by
  unfold clears
  rw [(Timeline.pop?_eq_some_iff.1 hp).1, List.filter_cons, h]
  rfl

/-- A clear that is taken off stood first among the clears. -/
theorem clears_pop_clear {entry : Entry Task} {timeline : Timeline Task} {generation : Nat}
    (hp : d.timeline.pop? = some (entry, timeline))
    (ht : entry.task = .clearAnimation key generation) :
    d.clears key = entry :: { d with timeline }.clears key := by
  have hclear := Task.isClearOf_iff.2 ⟨generation, ht⟩
  unfold clears
  rw [(Timeline.pop?_eq_some_iff.1 hp).1, List.filter_cons, hclear]
  rfl

/-- A draw schedules the clear of its own animation. -/
theorem mem_clears_drawn {texts : LabelSet} {series : Series} {target : ChartTarget}
    {due : Duration} {e : Entry Task} :
    e ∈ (d.drawn key texts series target due).clears key ↔
      e = ⟨due, d.timeline.scheduled, .clearAnimation key (d.lastGeneration key + 1)⟩ ∨
        e ∈ d.clears key := by
  rw [mem_clears, mem_clears]
  unfold drawn
  rw [Timeline.mem_push]
  constructor
  · intro hex
    obtain ⟨rfl | he, hg⟩ := hex
    · exact .inl rfl
    · exact .inr ⟨he, hg⟩
  · intro hex
    rcases hex with rfl | ⟨he, hg⟩
    · exact ⟨.inl rfl, _, rfl⟩
    · exact ⟨.inr he, hg⟩

/-- How often a clear waits is told by the clears of its chart. -/
theorem waiting_clear (d : Dashboard) (key : String) (generation : Nat) :
    d.timeline.waiting (.clearAnimation key generation) =
      (d.clears key).countP fun e => e.task = .clearAnimation key generation := by
  unfold Timeline.waiting clears
  rw [List.countP_filter]
  apply List.countP_congr
  intro e _
  rw [decide_eq_true_eq, Bool.and_eq_true, decide_eq_true_eq]
  constructor
  · intro h
    exact ⟨h, Task.isClearOf_iff.2 ⟨generation, h⟩⟩
  · exact And.left

/-- Are the chart of a key, the number of its draws and its clears the same? -/
structure Same (key : String) (d d' : Dashboard) : Prop where
  chart : d'.charts.get? key = d.charts.get? key
  count : d'.lastGeneration key = d.lastGeneration key
  clears : d'.clears key = d.clears key

theorem Same.refl (key : String) (d : Dashboard) : Same key d d := ⟨rfl, rfl, rfl⟩

theorem Same.trans {d₁ : Dashboard} (h : Same key d d₁) (h' : Same key d₁ d') : Same key d d' :=
  ⟨h'.chart.trans h.chart, h'.count.trans h.count, h'.clears.trans h.clears⟩

theorem same_push (due : Duration) (h : task.isClearOf key = false) :
    Same key d (d.push due task) :=
  ⟨rfl, rfl, clears_push due h⟩

theorem same_withLoader (d : Dashboard) (key : String) (state : LoaderState) :
    Same key d (d.withLoader state) := by
  unfold withLoader
  exact ⟨rfl, rfl, rfl⟩

theorem same_pop {entry : Entry Task} {timeline : Timeline Task}
    (hp : d.timeline.pop? = some (entry, timeline)) (h : entry.task.isClearOf key = false) :
    Same key d { d with timeline } :=
  ⟨rfl, rfl, clears_pop hp h⟩

theorem same_drawn {k : String} (hk : k ≠ key) (texts : LabelSet) (series : Series)
    (target : ChartTarget) (due : Duration) :
    Same key d (d.drawn k texts series target due) where
  chart := by
    unfold drawn
    rw [Table.get?_insert, if_neg hk.symm]
  count := by
    unfold drawn lastGeneration
    rw [Table.get?_insert, if_neg hk.symm]
  clears := by
    have hclear : (Task.clearAnimation k (d.lastGeneration k + 1)).isClearOf key = false :=
      decide_eq_false hk
    exact clears_push due hclear

theorem lastGeneration_drawn (texts : LabelSet) (series : Series) (target : ChartTarget)
    (due : Duration) :
    (d.drawn key texts series target due).lastGeneration key = d.lastGeneration key + 1 := by
  unfold drawn lastGeneration
  rw [Table.get?_insert, if_pos rfl]
  rfl

theorem get?_drawn (texts : LabelSet) (series : Series) (target : ChartTarget) (due : Duration) :
    (d.drawn key texts series target due).charts.get? key =
      some (d.shown key texts series target) := by
  unfold drawn
  rw [Table.get?_insert, if_pos rfl]

/-- A task that is neither a redraw nor a clear of the chart leaves it alone. -/
theorem Ran.same (h : d.Ran task d') (hc : task.isClearOf key = false)
    (hr : ∀ k labels values, task ≠ .redraw k labels values) : Same key d d' := by
  cases h with
  | stale => exact .refl key d
  | @clear k target hk =>
    have hne : k ≠ key := of_decide_eq_false hc
    exact ⟨by rw [Table.get?_insert, if_neg hne.symm], rfl, rfl⟩
  | redraw => exact absurd rfl (hr _ _ _)
  | autoIdle => exact same_withLoader d key .idle
  | tick => exact ⟨rfl, rfl, clears_push _ rfl⟩
  | lastTick => exact ⟨rfl, rfl, rfl⟩

/-- What a step can do to the chart of a key, and the change that it is on record as. -/
inductive Affects (d : Dashboard) (key : String) : Option ChartChange → Dashboard → Prop where
  | nothing {d' : Dashboard} (h : Same key d d') (hn : d.now ≤ d'.now) : Affects d key none d'
  | mounted (target : ChartTarget) :
    Affects d key (some (.mounted target)) (d.mount key target).2
  | unmounted : Affects d key (some .unmounted) (d.unmount key).2
  | drawn {labels values texts series target due} (hc : d.charts.get? key = some target)
    (hd : d.now.add? d.config.animator.clearAfter = some due) :
    Affects d key (some (.drawn ⟨labels, values, d.lastGeneration key + 1, d.now⟩))
      (d.drawn key texts series target due)
  | cleared {entry timeline target} (hp : d.timeline.pop? = some (entry, timeline))
    (ht : entry.task = .clearAnimation key target.root.generation)
    (hc : d.charts.get? key = some target) :
    Affects d key none { d with timeline, charts := d.charts.insert key target.still }
  /-- A clear of an earlier draw. -/
  | missed {entry timeline generation} (hp : d.timeline.pop? = some (entry, timeline))
    (ht : entry.task = .clearAnimation key generation)
    (hs : ∀ target, d.charts.get? key = some target → target.root.generation ≠ generation) :
    Affects d key none { d with timeline }

section

variable {labels : List String} {values : List Float} {texts : LabelSet} {series : Series}
  {target : ChartTarget}

/-- What a draw needs: labels and values that fill the slots, and a chart. -/
theorem checkDraw_eq_ok_iff :
    d.checkDraw labels values key = .ok (texts, series, target) ↔
      LabelSet.ofList labels = .ok texts ∧ Series.ofList values = .ok series ∧
        d.charts.get? key = some target := by
  unfold checkDraw
  cases LabelSet.ofList labels with
  | error e => exact ⟨nofun, fun h => nomatch h.1⟩
  | ok texts' =>
    cases Series.ofList values with
    | error e => exact ⟨nofun, fun h => nomatch h.2.1⟩
    | ok series' =>
      cases d.charts.get? key with
      | none => exact ⟨nofun, fun h => nomatch h.2.2⟩
      | some target' =>
        show Except.ok (texts', series', target') = .ok (texts, series, target) ↔ _
        simp only [Except.ok.injEq, Prod.mk.injEq, Option.some.injEq]

/-- A draw that passes the check is of a chart that is mounted. -/
theorem get?_of_checkDraw (h : d.checkDraw labels values key = .ok (texts, series, target)) :
    d.charts.get? key = some target :=
  (checkDraw_eq_ok_iff.1 h).2.2

theorem checkDraw_congr {e : Dashboard} (hc : e.charts.get? key = d.charts.get? key) :
    e.checkDraw labels values key = d.checkDraw labels values key := by
  unfold checkDraw
  rw [hc]

end

theorem due_le_pop {entry : Entry Task} {timeline : Timeline Task}
    (hp : d.timeline.pop? = some (entry, timeline)) : entry.due ≤ { d with timeline }.now := by
  show entry.due ≤ timeline.now
  rw [(Timeline.pop?_eq_some_iff.1 hp).2.1, Duration.le_def, Duration.nanos_latest]
  omega

theorem now_le_pop {entry : Entry Task} {timeline : Timeline Task}
    (hp : d.timeline.pop? = some (entry, timeline)) : d.now ≤ { d with timeline }.now := by
  show d.timeline.now ≤ timeline.now
  rw [(Timeline.pop?_eq_some_iff.1 hp).2.1, Duration.le_def, Duration.nanos_latest]
  omega

theorem affects_of_draws {labels : List String} {values : List Float} {k : String}
    {outcome : Except ChartError Nat} (h : d.Draws labels values k outcome d') (key : String) :
    Affects d key (Moment.chartChange? ⟨d, .draw labels values k⟩ key) d' := by
  have hresult := h.result
  unfold Moment.chartChange? Moment.drawing?
  dsimp only
  rw [hresult]
  cases h with
  | refused hc =>
    have hnone : (if k = key then (none : Option Drawing) else none) = none := ite_self none
    dsimp only
    rw [hnone]
    exact .nothing (.refl key d) (Nat.le_refl _)
  | came hc hd =>
    by_cases hk : k = key
    · subst hk
      rw [if_pos rfl]
      exact .drawn (get?_of_checkDraw hc) hd
    · rw [if_neg hk]
      exact .nothing (same_drawn hk _ _ _ _) (Nat.le_refl _)

theorem affects_of_step {deed : Deed} (hs : Step d deed d') (key : String) :
    Affects d key (Moment.chartChange? ⟨d, deed⟩ key) d' := by
  cases hs with
  | mount k target =>
    by_cases hk : k = key
    · subst hk
      unfold Moment.chartChange?
      dsimp only
      rw [if_pos rfl]
      exact .mounted target
    · unfold Moment.chartChange?
      dsimp only
      rw [if_neg hk]
      refine .nothing ⟨?_, rfl, rfl⟩ (Nat.le_refl _)
      unfold mount
      rw [Table.get?_insert, if_neg (Ne.symm hk)]
  | unmount k =>
    by_cases hk : k = key
    · subst hk
      unfold Moment.chartChange?
      dsimp only
      rw [if_pos rfl]
      exact .unmounted
    · unfold Moment.chartChange?
      dsimp only
      rw [if_neg hk]
      refine .nothing ⟨?_, rfl, rfl⟩ (Nat.le_refl _)
      unfold unmount
      rw [Table.get?_erase, if_neg (Ne.symm hk)]
  | draw h => exact affects_of_draws h key
  | planRedraw hd => exact .nothing (same_push _ rfl) (Nat.le_refl _)
  | moveLoader state =>
    refine .nothing (same_withLoader d key state) ?_
    rw [now_withLoader]
    exact Nat.le_refl _
  | finishLoader hd =>
    refine .nothing ((same_withLoader d key .success).trans (same_push _ rfl)) ?_
    show d.now ≤ (d.withLoader .success).now
    rw [now_withLoader]
    exact Nat.le_refl _
  | startBar hd => exact .nothing ⟨rfl, rfl, clears_push _ rfl⟩ (Nat.le_refl _)
  | @fire entry timeline d' hp hr h =>
    have hnow : d.now ≤ d'.now := by
      rw [h.now]
      exact now_le_pop hp
    cases hc : entry.task.isClearOf key with
    | true =>
      obtain ⟨generation, ht⟩ := Task.isClearOf_iff.1 hc
      rw [ht] at h
      cases h with
      | stale hs => exact .missed hp ht hs
      | clear hc => exact .cleared hp ht hc
    | false => exact .nothing ((same_pop hp hc).trans (h.same hc hr)) hnow
  | takeRedraw hp ht =>
    refine .nothing (same_pop hp ?_) (now_le_pop hp)
    rw [ht]
    rfl
  | wait hn hm =>
    refine .nothing ⟨rfl, rfl, rfl⟩ ?_
    rw [now_waited hn]
    exact hn

end Dashboard

end Sparkboard
