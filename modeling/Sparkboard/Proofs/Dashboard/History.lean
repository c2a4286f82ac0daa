import Sparkboard.Proofs.Dashboard.Drain
import Sparkboard.Proofs.Dashboard.Run
/-!
# Histories are runs

The deeds of an operation do together what the operation does, so the history of any sequence of
operations is the history of a run (`run_of_performAll`).
-/

namespace Sparkboard

namespace Dashboard

variable {d d₁ d' : Dashboard}

theorem Drains.replay {pop : Timeline Task → Option (Entry Task × Timeline Task)}
    {entries : List (Entry Task)} {rest : List Deed} (hpop : TakesFirst pop)
    (h : Drains pop d entries d₁) (hr : Run d₁ (d₁.replay rest) d') :
    Run d (d.replay (entries.flatMap Deed.running ++ rest)) d' := by
  induction h with
  | done => exact hr
  | run hp hrun _ ih =>
    rw [List.flatMap_cons, List.append_assoc]
    exact .replay_running (hpop _ _ _ hp) hrun (ih hr)

/-- A batch makes its first draw and goes on with the others. -/
theorem draw_of_drawAll {labels : List String} {key : String} {values : List Float}
    {rest : List (String × List Float)} {report : BatchReport}
    (h : (d.drawAll labels ((key, values) :: rest)).result = .ok (report, d')) :
    ∃ outcome d₁, (d.draw labels values key).result = .ok (outcome, d₁) ∧
      ∃ others, (d₁.drawAll labels rest).result = .ok (others, d') := by
  obtain ⟨⟨outcome, d₁⟩, hd, h⟩ := Work.result_bind_eq_ok.1 h
  obtain ⟨⟨others, _⟩, hrest, he⟩ := Work.result_bind_eq_ok.1 h
  cases he
  exact ⟨outcome, d₁, hd, others, hrest⟩

theorem after_of_plan {event : Event} {delay : Duration} {task : Task}
    {report report' : BatchReport}
    (h : (do
      Work.note event
      let d ← d.after delay task
      return (report, d)).result = .ok (report', d')) :
    (d.after delay task).result = .ok d' ∧ report = report' := by
  obtain ⟨_, -, h⟩ := Work.result_bind_eq_ok.1 h
  obtain ⟨_, hafter, he⟩ := Work.result_bind_eq_ok.1 h
  cases he
  exact ⟨hafter, rfl⟩

theorem plan_of_after {event : Event} {delay : Duration} {task : Task} (report : BatchReport)
    (h : (d.after delay task).result = .ok d') :
    (do
      Work.note event
      let d ← d.after delay task
      return (report, d)).result = .ok (report, d') :=
  Work.result_bind_eq_ok.2 ⟨(), rfl, Work.result_bind_eq_ok.2 ⟨d', h, rfl⟩⟩

/-- A batch draws, then it schedules the second draw. -/
theorem parts_of_initCharts {data : ChartData} {report : BatchReport}
    (h : (d.initCharts data).result = .ok (report, d')) :
    ∃ d₁, (d.drawAll data.labels
        [(employeeKey, data.employee), (sshKey, data.ssh), (signsKey, data.signs)]).result =
          .ok (report, d₁) ∧
      (d₁.after d₁.config.refreshDelay (.redraw employeeKey data.labels refreshSample)).result =
        .ok d' := by
  obtain ⟨⟨report', d₁⟩, hdraws, hplan⟩ := Work.result_bind_eq_ok.1 h
  obtain ⟨hafter, rfl⟩ := after_of_plan hplan
  exact ⟨d₁, hdraws, hafter⟩

theorem result_initCharts {data : ChartData} {report : BatchReport}
    (hdraws : (d.drawAll data.labels
      [(employeeKey, data.employee), (sshKey, data.ssh), (signsKey, data.signs)]).result =
        .ok (report, d₁))
    (hafter : (d₁.after d₁.config.refreshDelay
      (.redraw employeeKey data.labels refreshSample)).result = .ok d') :
    (d.initCharts data).result = .ok (report, d') :=
  Work.result_bind_eq_ok.2 ⟨(report, d₁), hdraws, plan_of_after report hafter⟩

theorem run_of_perform {op : Operation} {answer : Answer}
    (h : (d.perform op).result = .ok (answer, d')) : Run d (d.replay (d.deeds op answer)) d' := by
  cases op with
  | mount key target =>
    cases h
    exact .replay_single trivial rfl
  | unmount key =>
    cases h
    exact .replay_single trivial rfl
  | draw labels values key =>
    obtain ⟨⟨outcome, d₁⟩, hd, he⟩ := Work.result_bind_eq_ok.1 h
    cases he
    exact .replay_single trivial (result_act_draw hd)
  | initCharts data =>
    obtain ⟨⟨report, d₁⟩, hi, he⟩ := Work.result_bind_eq_ok.1 h
    cases he
    obtain ⟨d₂, hdraws, hafter⟩ := parts_of_initCharts hi
    obtain ⟨_, d₃, h₁, _, hdraws⟩ := draw_of_drawAll hdraws
    obtain ⟨_, d₄, h₂, _, hdraws⟩ := draw_of_drawAll hdraws
    obtain ⟨_, d₅, h₃, _, hdraws⟩ := draw_of_drawAll hdraws
    cases hdraws
    have ht (d : Dashboard) (values key) : d.Timely (.draw data.labels values key) := trivial
    have hlast : Run d₂ (d₂.replay [.planRedraw data.labels]) d' := .replay_single trivial hafter
    have hsigns : Run d₄ (d₄.replay [.draw data.labels data.signs signsKey,
        .planRedraw data.labels]) d' := .replay_cons (ht _ _ _) (result_act_draw h₃) hlast
    have hssh : Run d₃ (d₃.replay [.draw data.labels data.ssh sshKey,
        .draw data.labels data.signs signsKey, .planRedraw data.labels]) d' :=
      .replay_cons (ht _ _ _) (result_act_draw h₂) hsigns
    exact .replay_cons (ht _ _ _) (result_act_draw h₁) hssh
  | loaderStart | loaderStep | loaderHide =>
    obtain ⟨_, hm, he⟩ := Work.result_bind_eq_ok.1 h
    cases he
    exact .replay_single trivial hm
  | loaderFinishSuccess =>
    obtain ⟨_, hm, he⟩ := Work.result_bind_eq_ok.1 h
    cases he
    exact .replay_single trivial hm
  | startLoadingBar =>
    obtain ⟨⟨session, d₁⟩, hs, he⟩ := Work.result_bind_eq_ok.1 h
    cases he
    exact .replay_single trivial (Work.result_bind_eq_ok.2 ⟨_, hs, rfl⟩)
  | advance dt =>
    obtain ⟨⟨entries, _⟩, ha, he⟩ := Work.result_bind_eq_ok.1 h
    cases he
    obtain ⟨limit, d₁, hl, hd, rfl⟩ := result_advance_eq_ok.1 ha
    have htimely : d₁.Timely (.wait limit) :=
      ⟨hd.now_le (Duration.le_of_add? hl), Timeline.popDue?_eq_none_iff.1 hd.exhausted⟩
    show Run d (d.replay (entries.flatMap Deed.running ++ ((d.now.add? dt).map Deed.wait).toList)) _
    rw [hl]
    exact hd.replay (takesFirst_popDue limit) (.replay_single htimely rfl)
  | runUntilIdle =>
    obtain ⟨⟨entries, _⟩, hr, he⟩ := Work.result_bind_eq_ok.1 h
    cases he
    have hd := result_runUntilIdle_eq_ok.1 hr
    show Run d (d.replay (entries.flatMap Deed.running)) d'
    rw [← List.append_nil (entries.flatMap Deed.running)]
    exact hd.replay takesFirst_pop .nil

theorem run_of_performAll {ops : List Operation} {answers : List Answer}
    (h : (d.performAll ops).result = .ok (answers, d')) : Run d (d.history ops) d' := by
  induction ops generalizing d answers with
  | nil =>
    cases h
    exact .nil
  | cons op ops ih =>
    obtain ⟨⟨answer, d₁⟩, hop, h⟩ := Work.result_bind_eq_ok.1 h
    obtain ⟨⟨_, _⟩, hops, he⟩ := Work.result_bind_eq_ok.1 h
    cases he
    rw [history]
    simp only [hop]
    exact (run_of_perform hop).append (ih hops)

/-! ## The last operation -/

/-- The last of several operations starts where the others ended. -/
theorem performAll_concat {ops : List Operation} {answers : List Answer} {op : Operation}
    (h : (d.performAll (ops ++ [op])).result = .ok (answers, d')) :
    ∃ (d₁ : Dashboard) (answer : Answer), (d₁.perform op).result = .ok (answer, d') := by
  induction ops generalizing d answers with
  | nil =>
    obtain ⟨⟨answer, d₁⟩, hop, h⟩ := Work.result_bind_eq_ok.1 h
    cases h
    exact ⟨d, answer, hop⟩
  | cons _ ops ih =>
    obtain ⟨⟨_, d₁⟩, -, h⟩ := Work.result_bind_eq_ok.1 h
    obtain ⟨⟨_, _⟩, hops, he⟩ := Work.result_bind_eq_ok.1 h
    cases he
    exact ih hops

/-- After letting time pass the clock shows so much more, and all tasks that wait are due later. -/
theorem lt_due_of_advance {dt limit : Duration} {entries : List (Entry Task)}
    (hs : d'.timeline.Sound) (hl : d.now.add? dt = some limit)
    (h : (d.advance dt).result = .ok (entries, d')) :
    d'.now = limit ∧ ∀ e ∈ d'.timeline.pending, limit < e.due := by
  obtain ⟨_, d₁, hlimit, hd, rfl⟩ := result_advance_eq_ok.1 h
  obtain rfl := Option.some.inj (hl.symm.trans hlimit)
  have hnone := Timeline.popDue?_eq_none_iff.1 hd.exhausted
  exact ⟨now_waited (hd.now_le (Duration.le_of_add? hl)), hs.lt_due hnone⟩

theorem now_lt_due {ops : List Operation} {answers : List Answer} {dt : Duration}
    (hs : d'.timeline.Sound) (h : (d.performAll ops).result = .ok (answers, d'))
    (hl : ops.getLast? = some (.advance dt)) : ∀ e ∈ d'.timeline.pending, d'.now < e.due := by
  obtain ⟨before, rfl⟩ := List.getLast?_eq_some_iff.1 hl
  obtain ⟨d₀, _, hop⟩ := performAll_concat h
  obtain ⟨⟨entries, _⟩, ha, he⟩ := Work.result_bind_eq_ok.1 hop
  cases he
  obtain ⟨limit, _, hlimit, -, -⟩ := result_advance_eq_ok.1 ha
  obtain ⟨hnow, hlater⟩ := lt_due_of_advance hs hlimit ha
  rw [hnow]
  exact hlater

/-- Running until idle leaves nothing to do. -/
theorem pending_of_runUntilIdle {ops : List Operation} {answers : List Answer}
    (h : (d.performAll ops).result = .ok (answers, d'))
    (hl : ops.getLast? = some .runUntilIdle) : d'.timeline.pending = [] := by
  obtain ⟨before, rfl⟩ := List.getLast?_eq_some_iff.1 hl
  obtain ⟨d₀, _, hop⟩ := performAll_concat h
  obtain ⟨⟨entries, _⟩, hi, he⟩ := Work.result_bind_eq_ok.1 hop
  cases he
  exact Timeline.pop?_eq_none_iff.1 (result_runUntilIdle_eq_ok.1 hi).exhausted

/-! ## The default charts -/

theorem performAll_defaultCharts (config : Config) :
    ∃ answers, ((new config).performAll [.mount employeeKey .fresh, .mount sshKey .fresh,
      .mount signsKey .fresh]).result = .ok (answers, withDefaultCharts config) :=
  ⟨_, rfl⟩

end Dashboard

end Sparkboard
