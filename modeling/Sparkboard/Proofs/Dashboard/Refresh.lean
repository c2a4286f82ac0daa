import Sparkboard.Proofs.Dashboard.Atomicity
import Sparkboard.Proofs.Dashboard.Batch
import Sparkboard.Proofs.Dashboard.Plot
import Sparkboard.Proofs.Dashboard.TimelineRuns
/-!
# A batch and its second draw

What a batch on mounted charts and the second draw of the employees leave to be seen.  A chart whose
values can be drawn is plotted, and one whose values cannot is left alone and skipped with the first
reason (`plots_of_drawAll`, `leftOut_of_drawAll`).  While the time of the second draw passes,
nothing comes due but clears and this draw (`Refreshing`), so that afterwards the employees show the
sample, whatever came of their first draw, and all others what they showed (`Refreshing.made`).
-/

namespace Sparkboard

/-- The draws that are skipped, in order, each with the first reason. -/
inductive LeftOut (labels : List String) :
    List (String × List Float) → List (String × ChartError) → Prop where
  | nil : LeftOut labels [] []
  | drawn {x : String × List Float} {draws skipped} (hd : Drawable labels x.2)
    (rest : LeftOut labels draws skipped) : LeftOut labels (x :: draws) skipped
  | skipped {x : String × List Float} {draws skipped e} (hf : Fault labels x.2 e)
    (rest : LeftOut labels draws skipped) : LeftOut labels (x :: draws) ((x.1, e) :: skipped)

namespace Dashboard

variable {d d' d₁ : Dashboard} {key other : String} {labels : List String} {values : List Float}
  {outcome : Except ChartError Nat} {draws : List (String × List Float)} {report : BatchReport}
  {limit : Duration} {entries : List (Entry Task)}

/-! ## Single draws -/

theorem accepts_of_drawable (hd : Drawable labels values) (hm : (d.plot? key).isSome) :
    d.Accepts labels values key :=
  ⟨hd, by simpa [plot?] using hm⟩

theorem Draws.plot?_other (h : d.Draws labels values key outcome d') (hne : key ≠ other) :
    d'.plot? other = d.plot? other :=
  congrArg _ (h.alike hne).chart

/-- A draw of a mounted chart from what can be drawn is plotted. -/
theorem Draws.plotted (h : d.Draws labels values key outcome d') (hd : Drawable labels values)
    (hm : (d.plot? key).isSome) :
    (∃ generation, outcome = .ok generation) ∧ ∃ p, d'.plot? key = some p ∧ p.Of labels values := by
  obtain ⟨texts, series, target, hcheck⟩ := accepts_iff.1 (accepts_of_drawable hd hm)
  cases h with
  | refused hc =>
    rw [hcheck] at hc
    cases hc
  | came hc =>
    exact ⟨⟨_, rfl⟩, _, plot?_drawn _, plot_shown hc⟩

/-- A draw from what cannot be drawn is refused for the first reason. -/
theorem Draws.refused_of_fault {e : ChartError} (h : d.Draws labels values key outcome d')
    (hf : Fault labels values e) : outcome = .error e ∧ d' = d := by
  have hrefuses : d.Refuses labels values key e := .data hf
  have hcheck := refuses_iff.1 hrefuses
  cases h with
  | refused hc =>
    rw [hcheck] at hc
    cases hc
    exact ⟨rfl, rfl⟩
  | came hc =>
    rw [hcheck] at hc
    cases hc

/-! ## Draws in turn -/

theorem Draws.isSome_plot? (h : d.Draws labels values key outcome d')
    (hm : (d.plot? other).isSome) : (d'.plot? other).isSome := by
  by_cases hne : key = other
  · subst hne
    obtain hd | ⟨e, hf⟩ := drawable_or_fault labels values
    · obtain ⟨-, p, hp, -⟩ := h.plotted hd hm
      simp [hp]
    · obtain ⟨-, rfl⟩ := h.refused_of_fault hf
      exact hm
  · rw [h.plot?_other hne]
    exact hm

theorem isSome_plot?_of_drawAll (hm : (d.plot? other).isSome)
    (h : (d.drawAll labels draws).result = .ok (report, d')) : (d'.plot? other).isSome := by
  induction draws generalizing d report with
  | nil =>
    cases h
    exact hm
  | cons x draws ih =>
    obtain ⟨outcome, d₁, others, hdraw, hothers, rfl⟩ := result_drawAll_cons.1 h
    exact ih ((draws_of_draw hdraw).isSome_plot? hm) hothers

/-- The report tells the draws that were skipped, if all charts are mounted. -/
theorem leftOut_of_drawAll (hm : ∀ x ∈ draws, (d.plot? x.1).isSome)
    (h : (d.drawAll labels draws).result = .ok (report, d')) :
    LeftOut labels draws report.failed := by
  induction draws generalizing d report with
  | nil =>
    cases h
    exact .nil
  | cons x draws ih =>
    obtain ⟨outcome, d₁, others, hdraw, hothers, rfl⟩ := result_drawAll_cons.1 h
    have hdraws := draws_of_draw hdraw
    have hrest := ih (fun y hy => hdraws.isSome_plot? (hm y (List.mem_cons_of_mem x hy))) hothers
    obtain hd | ⟨e, hf⟩ := drawable_or_fault labels x.2
    · obtain ⟨⟨generation, rfl⟩, -⟩ := hdraws.plotted hd (hm x (List.mem_cons_self ..))
      exact .drawn hd hrest
    · obtain ⟨rfl, -⟩ := hdraws.refused_of_fault hf
      exact .skipped hf hrest

/-- Draws in turn plot each chart whose values can be drawn, and leave the others as they are. -/
theorem plots_of_drawAll (hn : (draws.map Prod.fst).Nodup) (hm : ∀ x ∈ draws, (d.plot? x.1).isSome)
    (h : (d.drawAll labels draws).result = .ok (report, d')) :
    (∀ x ∈ draws, (Drawable labels x.2 → ∃ p, d'.plot? x.1 = some p ∧ p.Of labels x.2) ∧
      (¬Drawable labels x.2 → d'.plot? x.1 = d.plot? x.1)) ∧
    ∀ key ∉ draws.map Prod.fst, d'.plot? key = d.plot? key := by
  have hapart := drawnApart_of_drawAll hn h
  refine ⟨fun x hx => ?_, fun key hkey => congrArg _ (hapart.others key hkey)⟩
  obtain ⟨outcome, d₁, hdraw, -, htarget⟩ := hapart.single x hx
  have hplot : d'.plot? x.1 = d₁.plot? x.1 := congrArg _ htarget
  have hdraws := draws_of_draw hdraw
  rw [hplot]
  refine ⟨fun hd => (hdraws.plotted hd (hm x hx)).2, fun hd => ?_⟩
  obtain ⟨e, hf⟩ := (drawable_or_fault labels x.2).resolve_left hd
  rw [(hdraws.refused_of_fault hf).2]

/-! ## The second draw -/

/-- Is `d` on the way from `start` to the second draw, which is due by `limit`?  Nothing waits but
clears and this draw, which was made unless it waits. -/
structure Refreshing (labels : List String) (limit : Duration) (start d : Dashboard) : Prop where
  sound : d.timeline.Sound
  tasks : ∀ e ∈ d.timeline.pending, (∃ key generation, e.task = .clearAnimation key generation) ∨
    e.task = .redraw employeeKey labels refreshSample
  others : ∀ key, key ≠ employeeKey → d.plot? key = start.plot? key
  mounted : (d.plot? employeeKey).isSome
  employee : (∃ e ∈ d.timeline.pending,
      e.task = .redraw employeeKey labels refreshSample ∧ e.due ≤ limit) ∨
    ∃ p, d.plot? employeeKey = some p ∧ p.Of labels refreshSample

theorem drawable_refreshSample (hl : labels.length = 4) : Drawable labels refreshSample :=
  ⟨hl, rfl, by decide +kernel⟩

theorem Ran.plot?_clear {generation : Nat} (h : d.Ran (.clearAnimation key generation) d')
    (other : String) : d'.plot? other = d.plot? other := by
  generalize ht : Task.clearAnimation key generation = task at h
  cases h with
  | stale => rfl
  | @clear k target hc =>
    unfold plot? target?
    rw [Table.get?_insert]
    split
    · next heq =>
      rw [heq, hc]
      rfl
    · rfl
  | redraw | autoIdle | tick | lastTick => cases ht

theorem Refreshing.run {start : Dashboard} {entry : Entry Task} {timeline : Timeline Task}
    (hl : labels.length = 4) (h : Refreshing labels limit start d)
    (hp : d.timeline.pop? = some (entry, timeline))
    (hr : ({ d with timeline }.run entry.task).result = .ok d₁) :
    Refreshing labels limit start d₁ := by
  have hran := ran_of_run hr
  have hsound : d₁.timeline.Sound := hran.grows.sound (h.sound.pop hp)
  obtain ⟨key, generation, ht⟩ | ht := h.tasks entry (Timeline.mem_of_pop? hp)
  · rw [ht] at hran
    have hplots := hran.plot?_clear
    have hpending (e : Entry Task) (he : e ∈ d₁.timeline.pending) : e ∈ d.timeline.pending := by
      have hold : e ∈ timeline.pending := by
        cases hran <;> exact he
      exact Timeline.mem_of_mem_pop hp hold
    refine ⟨hsound, fun e he => h.tasks e (hpending e he), fun other hne => ?_, ?_, ?_⟩
    · rw [hplots]
      exact h.others other hne
    · rw [hplots]
      exact h.mounted
    · rw [hplots]
      refine h.employee.imp_left fun hex => ?_
      obtain ⟨e, he, htask, hdue⟩ := hex
      refine ⟨e, ?_, htask, hdue⟩
      -- the draw is not the clear that is run, so it goes on waiting
      rw [(Timeline.pop?_eq_some_iff.1 hp).1] at he
      rcases List.mem_cons.1 he with rfl | he
      · rw [ht] at htask
        cases htask
      · cases hran <;> exact he
  · rw [ht] at hran
    cases hran with
    | stale hs => exact hs.elim
    | redraw hdraws =>
      obtain ⟨-, p, hplot, hof⟩ :=
        hdraws.plotted (drawable_refreshSample hl) (show _ from h.mounted)
      refine ⟨hsound, fun e he => ?_, fun other hne => ?_, by simp [hplot], .inr ⟨p, hplot, hof⟩⟩
      · cases hdraws with
        | refused => exact h.tasks e (Timeline.mem_of_mem_pop hp he)
        | came =>
          rcases Timeline.mem_push.1 he with rfl | he
          · exact .inl ⟨_, _, rfl⟩
          · exact h.tasks e (Timeline.mem_of_mem_pop hp he)
      · rw [hdraws.plot?_other (Ne.symm hne)]
        exact h.others other hne

theorem Refreshing.drains {start : Dashboard}
    {pop : Timeline Task → Option (Entry Task × Timeline Task)} (hpop : TakesFirst pop)
    (hl : labels.length = 4) (h : Refreshing labels limit start d)
    (hd : Drains pop d entries d') : Refreshing labels limit start d' := by
  induction hd with
  | done => exact h
  | run hp hr _ ih => exact ih (h.run hl (hpop _ _ _ hp) hr)

/-- Once nothing is due by the limit, the draw was made. -/
theorem Refreshing.made {start : Dashboard} (h : Refreshing labels limit start d)
    (hn : d.timeline.popDue? limit = none) :
    ∃ p, d.plot? employeeKey = some p ∧ p.Of labels refreshSample := by
  refine h.employee.resolve_left fun hex => ?_
  obtain ⟨e, he, -, hdue⟩ := hex
  have hlater := h.sound.lt_due (Timeline.popDue?_eq_none_iff.1 hn) e he
  rw [Duration.le_def] at hdue
  rw [Duration.lt_def] at hlater
  omega

theorem now_of_initCharts {data : ChartData} (h : (d.initCharts data).result = .ok (report, d')) :
    d'.now = d.now := by
  obtain ⟨d₁, hdraws, hafter⟩ := parts_of_initCharts h
  obtain ⟨due, -, rfl⟩ := result_after_eq_ok.1 hafter
  exact (drawnApart_of_drawAll (nodup_draws data) hdraws).now

/-- A batch with nothing else to do waits for its clears and its second draw. -/
theorem refreshing_of_initCharts {data : ChartData} (hsound : d'.timeline.Sound)
    (hidle : d.timeline.pending = []) (hm : (d.plot? employeeKey).isSome)
    (hlimit : d.now.add? d.config.refreshDelay = some limit)
    (h : (d.initCharts data).result = .ok (report, d')) :
    Refreshing data.labels limit d' d' := by
  obtain ⟨d₁, hdraws, hafter⟩ := parts_of_initCharts h
  have hapart := drawnApart_of_drawAll (nodup_draws data) hdraws
  obtain ⟨due, hdue, rfl⟩ := result_after_eq_ok.1 hafter
  obtain ⟨clears, htasks, -, -, hpending⟩ := hapart.clears
  have hlimit' : due = limit := by
    rw [hapart.now, hapart.config, hlimit] at hdue
    cases hdue
    rfl
  have hmounted : (d₁.plot? employeeKey).isSome := isSome_plot?_of_drawAll hm hdraws
  refine ⟨hsound, fun e he => ?_, fun _ _ => rfl, hmounted,
    .inl ⟨_, Timeline.mem_push.2 (.inl rfl), rfl, Nat.le_of_eq (by rw [hlimit'])⟩⟩
  rcases Timeline.mem_push.1 he with rfl | he
  · exact .inr rfl
  · have hclear := hpending.mem_iff.1 he
    rw [hidle, List.append_nil] at hclear
    have htask : e.task ∈ clears.map Entry.task := List.mem_map_of_mem hclear
    rw [htasks] at htask
    obtain ⟨x, -, hx⟩ := List.mem_map.1 htask
    exact .inl ⟨x.1, x.2, hx.symm⟩

end Dashboard

end Sparkboard
