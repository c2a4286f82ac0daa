import Sparkboard.Proofs.Dashboard.ChartSteps
import Sparkboard.Proofs.Dashboard.History
/-!
# Batches

The draws of a batch do not see each other.  A draw reads the configuration, the clock, its chart
and how often that was drawn (`DrawsAlike.draw`), and a draw under another key changes none of these
(`Draws.alike`).  So each draw of a batch comes to what it would come to alone, and the second draw
of the employees is scheduled whatever came of the first (`initCharts_draws_each_alone`).
-/

namespace Sparkboard

/-- The draws of a batch, in order. -/
def ChartData.draws (data : ChartData) : List (String × List Float) :=
  [(employeeKey, data.employee), (sshKey, data.ssh), (signsKey, data.signs)]

/-- Does the report tell this outcome of the draw under a key? -/
def BatchReport.Tells (report : BatchReport) (key : String) : Except ChartError Nat → Prop
  | .ok generation => (key, generation) ∈ report.drawn
  | .error e => (key, e) ∈ report.failed

/-- Does the report tell of each key once, each of its lists in the order of the keys? -/
structure BatchReport.Splits (report : BatchReport) (keys : List String) : Prop where
  drawn : (report.drawn.map Prod.fst).Sublist keys
  failed : (report.failed.map Prod.fst).Sublist keys
  all : (report.drawn.map Prod.fst ++ report.failed.map Prod.fst).Perm keys

namespace BatchReport

variable {report : BatchReport} {key other : String} {outcome told : Except ChartError Nat}
  {keys : List String}

theorem tells_cons (report : BatchReport) (key : String) (outcome : Except ChartError Nat) :
    (report.cons key outcome).Tells key outcome := by
  cases outcome <;> exact List.mem_cons_self ..

theorem Tells.cons (h : report.Tells other told) :
    (report.cons key outcome).Tells other told := by
  cases told <;> cases outcome <;> first | exact h | exact List.mem_cons_of_mem _ h

theorem Splits.cons (h : report.Splits keys) : (report.cons key outcome).Splits (key :: keys) := by
  cases outcome with
  | ok generation => exact ⟨h.drawn.cons_cons key, h.failed.cons key, h.all.cons key⟩
  | error e =>
    exact ⟨h.drawn.cons key, h.failed.cons_cons key, List.perm_middle.trans (h.all.cons key)⟩

end BatchReport

namespace Dashboard

variable {d d' d₁ e : Dashboard} {key other : String} {labels : List String} {values : List Float}
  {outcome : Except ChartError Nat} {draws : List (String × List Float)} {report : BatchReport}

/-! ## Draws under different keys -/

/-- Do the two dashboards look the same to a draw under a key? -/
structure DrawsAlike (key : String) (d e : Dashboard) : Prop where
  config : e.config = d.config
  now : e.now = d.now
  chart : e.charts.get? key = d.charts.get? key
  count : e.lastGeneration key = d.lastGeneration key

theorem DrawsAlike.symm (h : DrawsAlike key d e) : DrawsAlike key e d :=
  ⟨h.config.symm, h.now.symm, h.chart.symm, h.count.symm⟩

/-- A draw comes to the same on dashboards that look the same to it. -/
theorem DrawsAlike.draw (h : DrawsAlike key d e)
    (hd : (d.draw labels values key).result = .ok (outcome, d')) :
    ∃ e', (e.draw labels values key).result = .ok (outcome, e') ∧
      e'.target? key = d'.target? key := by
  have hcheck : e.checkDraw labels values key = d.checkDraw labels values key :=
    checkDraw_congr h.chart
  cases draws_of_draw hd with
  | refused hc =>
    rw [← hcheck] at hc
    exact ⟨e, result_draw_of_error hc, h.chart⟩
  | @came texts series target due hc hdue =>
    rw [← hcheck] at hc
    rw [← h.config, ← h.now] at hdue
    refine ⟨e.drawn key texts series target due,
      (result_draw_of_ok hc).2 ⟨due, hdue, by rw [h.count], rfl⟩, ?_⟩
    show (e.drawn key texts series target due).charts.get? key =
      (d.drawn key texts series target due).charts.get? key
    rw [get?_drawn, get?_drawn]
    unfold shown
    rw [h.count, h.config]

/-- A draw is not seen by a draw under another key. -/
theorem Draws.alike (h : d.Draws labels values key outcome d') (hk : key ≠ other) :
    DrawsAlike other d d' := by
  cases h with
  | refused => exact ⟨rfl, rfl, rfl, rfl⟩
  | came =>
    have hsame := same_drawn (d := d) hk
    exact ⟨rfl, rfl, (hsame ..).chart, (hsame ..).count⟩

/-! ## Draws in turn -/

theorem result_drawAll_cons {x : String × List Float} :
    (d.drawAll labels (x :: draws)).result = .ok (report, d') ↔
      ∃ outcome d₁ others, (d.draw labels x.2 x.1).result = .ok (outcome, d₁) ∧
        (d₁.drawAll labels draws).result = .ok (others, d') ∧ report = others.cons x.1 outcome := by
  constructor
  · intro h
    obtain ⟨⟨outcome, d₁⟩, hdraw, hrest⟩ := Work.result_bind_eq_ok.1 h
    obtain ⟨⟨others, _⟩, hothers, he⟩ := Work.result_bind_eq_ok.1 hrest
    cases he
    exact ⟨outcome, d₁, others, hdraw, hothers, rfl⟩
  · intro hex
    obtain ⟨outcome, d₁, others, hdraw, hothers, rfl⟩ := hex
    exact Work.result_bind_eq_ok.2
      ⟨_, hdraw, Work.result_bind_eq_ok.2 ⟨_, hothers, rfl⟩⟩

/-- What draws made in turn come to, if each is made as if it were alone. -/
structure DrawnApart (labels : List String) (draws : List (String × List Float))
    (report : BatchReport) (d d' : Dashboard) : Prop where
  config : d'.config = d.config
  now : d'.now = d.now
  splits : report.Splits (draws.map Prod.fst)
  single : ∀ x ∈ draws, ∃ outcome d₁, (d.draw labels x.2 x.1).result = .ok (outcome, d₁) ∧
    report.Tells x.1 outcome ∧ d'.target? x.1 = d₁.target? x.1
  others : ∀ key ∉ draws.map Prod.fst, d'.target? key = d.target? key
  clears : ∃ clears : List (Entry Task),
    clears.map Entry.task = report.drawn.map (fun x => .clearAnimation x.1 x.2) ∧
    (∀ c ∈ clears, d.now.add? d.config.animator.clearAfter = some c.due) ∧
    d'.timeline.scheduled = d.timeline.scheduled + clears.length ∧
    d'.timeline.pending.Perm (clears ++ d.timeline.pending)

/-- One more draw in front of draws under other keys. -/
theorem DrawnApart.cons {x : String × List Float} {rest : BatchReport}
    (hdraw : (d.draw labels x.2 x.1).result = .ok (outcome, d₁)) (hx : x.1 ∉ draws.map Prod.fst)
    (h : DrawnApart labels draws rest d₁ d') :
    DrawnApart labels (x :: draws) (rest.cons x.1 outcome) d d' := by
  have hdraws := draws_of_draw hdraw
  have hconfig : d₁.config = d.config := by cases hdraws <;> rfl
  refine ⟨h.config.trans hconfig, h.now.trans hdraws.now, h.splits.cons, ?_, ?_, ?_⟩
  · intro y hy
    rcases List.mem_cons.1 hy with rfl | hy
    · exact ⟨outcome, d₁, hdraw, BatchReport.tells_cons rest y.1 outcome, h.others y.1 hx⟩
    · have hne : x.1 ≠ y.1 := fun heq => hx (heq ▸ List.mem_map_of_mem hy)
      obtain ⟨told, d₂, hy', htells, htarget⟩ := h.single y hy
      obtain ⟨e, he, hsame⟩ := (hdraws.alike hne).symm.draw hy'
      exact ⟨told, e, he, htells.cons, htarget.trans hsame.symm⟩
  · intro key hkey
    rw [List.map_cons, List.mem_cons, not_or] at hkey
    exact (h.others key hkey.2).trans (hdraws.alike (Ne.symm hkey.1)).chart
  · obtain ⟨clears, htasks, hdues, hscheduled, hpending⟩ := h.clears
    rw [hconfig, hdraws.now] at hdues
    cases hdraws with
    | refused => exact ⟨clears, htasks, hdues, hscheduled, hpending⟩
    | @came _ _ _ due _ hdue =>
      refine ⟨⟨due, d.timeline.scheduled, .clearAnimation x.1 (d.lastGeneration x.1 + 1)⟩ :: clears,
        ?_, ?_, ?_, ?_⟩
      · rw [List.map_cons, htasks]
        rfl
      · intro c hc
        rcases List.mem_cons.1 hc with rfl | hc
        · exact hdue
        · exact hdues c hc
      · rw [hscheduled, List.length_cons]
        show d.timeline.scheduled + 1 + clears.length = _
        omega
      · refine hpending.trans ?_
        rw [List.cons_append]
        exact ((Timeline.pending_push ..).append_left clears).trans List.perm_middle

/-- Draws under different keys are made as if each were alone. -/
theorem drawnApart_of_drawAll (hn : (draws.map Prod.fst).Nodup)
    (h : (d.drawAll labels draws).result = .ok (report, d')) :
    DrawnApart labels draws report d d' := by
  induction draws generalizing d report with
  | nil =>
    cases h
    exact ⟨rfl, rfl, ⟨.refl _, .refl _, .refl _⟩, List.forall_mem_nil _, fun _ _ => rfl,
      [], rfl, List.forall_mem_nil _, rfl, .refl _⟩
  | cons x draws ih =>
    obtain ⟨hx, hrest⟩ := List.nodup_cons.1 hn
    obtain ⟨outcome, d₁, others, hdraw, hothers, rfl⟩ := result_drawAll_cons.1 h
    exact .cons hdraw hx (ih hrest hothers)

/-- Draws in turn overflow the clock only if one of them does alone. -/
theorem exists_drawAll (hn : (draws.map Prod.fst).Nodup)
    (h : ∀ x ∈ draws, ∃ outcome d₁, (d.draw labels x.2 x.1).result = .ok (outcome, d₁)) :
    ∃ report d', (d.drawAll labels draws).result = .ok (report, d') := by
  induction draws generalizing d with
  | nil => exact ⟨_, d, rfl⟩
  | cons x draws ih =>
    obtain ⟨hx, hrest⟩ := List.nodup_cons.1 hn
    obtain ⟨outcome, d₁, hdraw⟩ := h x (List.mem_cons_self ..)
    have hothers : ∀ y ∈ draws, ∃ outcome d₂,
        (d₁.draw labels y.2 y.1).result = .ok (outcome, d₂) := by
      intro y hy
      have hne : x.1 ≠ y.1 := fun heq => hx (heq ▸ List.mem_map_of_mem hy)
      obtain ⟨outcome, d₂, hy'⟩ := h y (List.mem_cons_of_mem x hy)
      obtain ⟨e, he, -⟩ := ((draws_of_draw hdraw).alike hne).draw hy'
      exact ⟨outcome, e, he⟩
    obtain ⟨others, d', hall⟩ := ih hrest hothers
    exact ⟨_, d', result_drawAll_cons.2 ⟨outcome, d₁, others, hdraw, hall, rfl⟩⟩

/-! ## The batch -/

theorem nodup_draws (data : ChartData) : (data.draws.map Prod.fst).Nodup := by
  show [employeeKey, sshKey, signsKey].Nodup
  decide

/-- A batch has a result exactly if the second draw of the employees can be scheduled and each of
its draws has a result alone. -/
theorem exists_initCharts_iff {data : ChartData} :
    (∃ report d', (d.initCharts data).result = .ok (report, d')) ↔
      (∃ due, d.now.add? d.config.refreshDelay = some due) ∧
        ∀ x ∈ data.draws, ∃ outcome d₁,
          (d.draw data.labels x.2 x.1).result = .ok (outcome, d₁) := by
  constructor
  · intro hex
    obtain ⟨report, d', h⟩ := hex
    obtain ⟨d₁, hdraws, hafter⟩ := parts_of_initCharts h
    have hapart := drawnApart_of_drawAll (nodup_draws data) hdraws
    obtain ⟨due, hdue, -⟩ := result_after_eq_ok.1 hafter
    rw [hapart.now, hapart.config] at hdue
    refine ⟨⟨due, hdue⟩, fun x hx => ?_⟩
    obtain ⟨outcome, d₂, hdraw, -⟩ := hapart.single x hx
    exact ⟨outcome, d₂, hdraw⟩
  · intro hex
    obtain ⟨⟨due, hdue⟩, hsingle⟩ := hex
    obtain ⟨report, d₁, hdraws⟩ := exists_drawAll (nodup_draws data) hsingle
    have hapart := drawnApart_of_drawAll (nodup_draws data) hdraws
    rw [← hapart.now, ← hapart.config] at hdue
    exact ⟨report, _, result_initCharts hdraws (result_after_eq_ok.2 ⟨due, hdue, rfl⟩)⟩

/-- A batch draws each of its charts as a draw alone would, whatever comes of the others: the report
tells the number or the error that this draw answers, and its target is afterwards the one that this
draw leaves.  All other charts are left alone.  One clear waits for each chart that was drawn, and
in any case the second draw of the employees. -/
theorem initCharts_draws_each_alone (d : Dashboard) (data : ChartData) :
    ((∃ report d', (d.initCharts data).result = .ok (report, d')) ↔
      (∃ due, d.now.add? d.config.refreshDelay = some due) ∧
        ∀ x ∈ data.draws, ∃ outcome d₁,
          (d.draw data.labels x.2 x.1).result = .ok (outcome, d₁)) ∧
    ∀ report d', (d.initCharts data).result = .ok (report, d') →
      report.Splits [employeeKey, sshKey, signsKey] ∧
      (∀ x ∈ data.draws, ∃ outcome d₁, (d.draw data.labels x.2 x.1).result = .ok (outcome, d₁) ∧
        report.Tells x.1 outcome ∧ d'.target? x.1 = d₁.target? x.1) ∧
      (∀ key ∉ [employeeKey, sshKey, signsKey], d'.target? key = d.target? key) ∧
      d'.timeline.pending.length = d.timeline.pending.length + report.drawn.length + 1 ∧
      ∃ clears due, clears.map Entry.task = report.drawn.map (fun x => .clearAnimation x.1 x.2) ∧
        (∀ c ∈ clears, d.now.add? d.config.animator.clearAfter = some c.due) ∧
        d.now.add? d.config.refreshDelay = some due ∧
        d'.timeline.pending.Perm
          (⟨due, d.timeline.scheduled + report.drawn.length,
            .redraw employeeKey data.labels [0.0, 2.0, 2.0, 6.0]⟩ ::
              (clears ++ d.timeline.pending)) := by
  refine ⟨exists_initCharts_iff, ?_⟩
  intro report d' h
  obtain ⟨d₁, hdraws, hafter⟩ := parts_of_initCharts h
  have hapart := drawnApart_of_drawAll (nodup_draws data) hdraws
  obtain ⟨due, hdue, rfl⟩ := result_after_eq_ok.1 hafter
  obtain ⟨clears, htasks, hdues, hscheduled, hpending⟩ := hapart.clears
  have hlength : clears.length = report.drawn.length := by
    have := congrArg List.length htasks
    rwa [List.length_map, List.length_map] at this
  rw [hapart.now, hapart.config] at hdue
  rw [hlength] at hscheduled
  have hall : (d₁.push due (.redraw employeeKey data.labels refreshSample)).timeline.pending.Perm
      (⟨due, d.timeline.scheduled + report.drawn.length,
        .redraw employeeKey data.labels refreshSample⟩ :: (clears ++ d.timeline.pending)) := by
    rw [← hscheduled]
    exact (Timeline.pending_push ..).trans (hpending.cons _)
  refine ⟨hapart.splits, hapart.single, hapart.others, ?_, clears, due, htasks, hdues, hdue, hall⟩
  rw [hall.length_eq, List.length_cons, List.length_append, hlength]
  omega

/-- A batch of which one chart is mounted, one is not and one has a negative value. -/
def halfBatch : ChartData :=
  ⟨["a", "b", "c", "d"], [1.0, 2.0, 3.0, 4.0], [1.0, 2.0, 3.0, 4.0], [1.0, -1.0, 3.0, 4.0]⟩

/-- Only the connections are drawn; their clear and the second draw of the employees wait. -/
theorem initCharts_halfBatch :
    ∃ report d', (((new .default).mount sshKey .fresh).2.initCharts halfBatch).result =
        .ok (report, d') ∧
      report = ⟨[(sshKey, 1)],
        [(employeeKey, .missingTarget employeeKey), (signsKey, .unplottable 1 (-1.0))]⟩ ∧
      report.Splits [employeeKey, sshKey, signsKey] ∧ d'.timeline.pending.length = 2 := by
  obtain ⟨-, hbatch⟩ :=
    initCharts_draws_each_alone ((new .default).mount sshKey .fresh).2 halfBatch
  obtain ⟨report, d', hrun, hreport⟩ : ∃ report d',
      (((new .default).mount sshKey .fresh).2.initCharts halfBatch).result = .ok (report, d') ∧
        report = ⟨[(sshKey, 1)],
          [(employeeKey, .missingTarget employeeKey), (signsKey, .unplottable 1 (-1.0))]⟩ :=
    ⟨_, _, rfl, rfl⟩
  obtain ⟨hsplits, -, -, hlength, -⟩ := hbatch report d' hrun
  refine ⟨report, d', hrun, hreport, hsplits, ?_⟩
  rw [hlength, hreport]
  rfl

end Dashboard

end Sparkboard
