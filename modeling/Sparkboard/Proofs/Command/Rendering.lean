import Sparkboard.Command.Render
import Sparkboard.Proofs.Dashboard.Horizon
import Sparkboard.Proofs.Dashboard.Refresh
/-!
# What is rendered of chart data

Every set of data can be rendered, whatever the configuration.  A draw whose values cannot be drawn
is skipped.  Unless all are skipped, the charts to be pictured are those whose own values can be
drawn and, if the data are refreshed, that of the employees with the sample (`Pictured`); just these
are visible, each with the plot of its values (`exists_rendering`).
-/

namespace Sparkboard

/-- The charts that are pictured, each with the values that it shows. -/
inductive Pictured (data : ChartData) (refresh : Bool) : String → List Float → Prop where
  | sample (hr : refresh = true) : Pictured data refresh employeeKey refreshSample
  | own {x : String × List Float} (hx : x ∈ data.draws) (hd : Drawable data.labels x.2)
    (hk : refresh = true → x.1 ≠ employeeKey) : Pictured data refresh x.1 x.2

instance (labels : List String) (values : List Float) : Decidable (Drawable labels values) :=
  decidable_of_iff
    (labels.length = 4 ∧ values.length = 4 ∧ ∀ v ∈ values, v.isFinite = true ∧ ¬v < 0.0)
    ⟨fun h => ⟨h.1, h.2.1, h.2.2⟩, fun h => ⟨h.length_labels, h.length_values, h.placed⟩⟩

theorem not_drawable_of_fault {labels : List String} {values : List Float} {e : ChartError}
    (hf : Fault labels values e) : ¬Drawable labels values := by
  intro hd
  cases hf with
  | labels hl => exact hl hd.length_labels
  | values _ hv => exact hv hd.length_values
  | value _ _ hs hbad _ => exact hbad (hd.placed _ (List.mem_of_getElem? hs))

namespace LeftOut

variable {labels : List String} {draws : List (String × List Float)}
  {skipped : List (String × ChartError)}

theorem length_le (h : LeftOut labels draws skipped) : skipped.length ≤ draws.length := by
  induction h with
  | nil => exact Nat.le_refl _
  | drawn _ _ ih => exact Nat.le_succ_of_le ih
  | skipped _ _ ih => exact Nat.succ_le_succ ih

/-- All draws are skipped exactly if none can be drawn. -/
theorem length_eq_iff (h : LeftOut labels draws skipped) :
    skipped.length = draws.length ↔ ∀ x ∈ draws, ¬Drawable labels x.2 := by
  induction h with
  | nil => simp
  | @drawn x draws skipped hd rest ih =>
    have hle := rest.length_le
    refine iff_of_false ?_ fun hnone => hnone x (List.mem_cons_self ..) hd
    rw [List.length_cons]
    omega
  | skipped hf _ ih =>
    simp [ih, not_drawable_of_fault hf]

end LeftOut

namespace Rendering

/-- Is this what data are rendered to? -/
structure Of (r : Rendering) (data : ChartData) (refresh : Bool) : Prop where
  skips : LeftOut data.labels data.draws r.skipped
  nodup : (r.visible.map Prod.fst).Nodup
  shown : ∀ e ∈ r.visible, ∃ values, Pictured data refresh e.1 values ∧
    e.2.plot.Of data.labels values
  all : (∃ x ∈ data.draws, Drawable data.labels x.2) → ∀ key values,
    Pictured data refresh key values → ∃ target, (key, target) ∈ r.visible ∧
      target.plot.Of data.labels values

variable {r : Rendering} {data : ChartData} {refresh : Bool}

theorem Of.isEmpty_iff (h : r.Of data refresh) :
    r.isEmpty = true ↔ ∀ x ∈ data.draws, ¬Drawable data.labels x.2 := by
  rw [← h.skips.length_eq_iff]
  simp [isEmpty, ChartData.draws]

end Rendering

namespace Dashboard

variable {config : Config} {h : History} {d d' : Dashboard} {data : ChartData} {key : String}
  {labels : List String} {values : List Float} {report : BatchReport} {p : Plot} {refresh : Bool}

theorem line_ne_nil_of_plot (hof : p.Of labels values) : p.line ≠ [] := by
  obtain ⟨series, -, hline⟩ := hof.line
  rw [hline]
  exact List.cons_ne_nil _ _

/-! ## The default charts -/

theorem run_defaultCharts (config : Config) :
    ∃ h, Run (new config) h (withDefaultCharts config) := by
  obtain ⟨answers, hops⟩ := performAll_defaultCharts config
  exact ⟨_, run_of_performAll hops⟩

/-- The default charts show nothing yet. -/
theorem plot?_defaultCharts (config : Config) (key : String) :
    (withDefaultCharts config).plot? key =
      if key ∈ [employeeKey, sshKey, signsKey] then some ChartTarget.fresh.plot else none := by
  by_cases hkey : key ∈ [employeeKey, sshKey, signsKey]
  · rw [if_pos hkey]
    simp only [List.mem_cons, List.not_mem_nil, or_false] at hkey
    rcases hkey with rfl | rfl | rfl <;> rfl
  · rw [if_neg hkey]
    simp only [List.mem_cons, List.not_mem_nil, or_false, not_or] at hkey
    simp [plot?, target?, withDefaultCharts, mount, new, hkey]

/-! ## The rendering -/

theorem mem_visible (hr : Run (new config) h d) {skipped : List (String × ChartError)}
    {target : ChartTarget} :
    (key, target) ∈ (Rendering.mk skipped d).visible ↔
      d.target? key = some target ∧ target.line ≠ [] := by
  unfold Rendering.visible
  rw [List.mem_filter, ← hr.sorted_charts.get?_eq_some_iff]
  simp [target?]

/-- Does the dashboard show the charts that are to be pictured, and no others? -/
structure Shows (data : ChartData) (refresh : Bool) (d : Dashboard) : Prop where
  plotted : ∀ key values, Pictured data refresh key values →
    ∃ p, d.plot? key = some p ∧ p.Of data.labels values
  only : ∀ key p, d.plot? key = some p → p.line ≠ [] → ∃ values, Pictured data refresh key values

/-- A batch on the default charts skips what cannot be drawn and shows the rest. -/
theorem shows_of_initCharts
    (hi : ((withDefaultCharts config).initCharts data).result = .ok (report, d)) :
    LeftOut data.labels data.draws report.failed ∧ d.Shows data false := by
  have hfresh : ∀ x ∈ data.draws,
      (withDefaultCharts config).plot? x.1 = some ChartTarget.fresh.plot := by
    intro x hx
    rw [plot?_defaultCharts, if_pos]
    exact List.mem_map_of_mem (f := Prod.fst) hx
  have hm : ∀ x ∈ data.draws, ((withDefaultCharts config).plot? x.1).isSome := by
    intro x hx
    simp [hfresh x hx]
  obtain ⟨d₁, hdraws, hafter⟩ := parts_of_initCharts hi
  obtain ⟨due, -, rfl⟩ := result_after_eq_ok.1 hafter
  obtain ⟨hplots, hothers⟩ := plots_of_drawAll (nodup_draws data) hm hdraws
  refine ⟨leftOut_of_drawAll hm hdraws, fun key values hpictured => ?_, fun key p hp hline => ?_⟩
  · cases hpictured with
    | own hx hd _ => exact (hplots _ hx).1 hd
    | sample hr => cases hr
  · by_cases hkey : key ∈ data.draws.map Prod.fst
    · obtain ⟨x, hx, rfl⟩ := List.mem_map.1 hkey
      by_cases hd : Drawable data.labels x.2
      · exact ⟨x.2, .own hx hd nofun⟩
      · have hblank : d₁.plot? x.1 = some ChartTarget.fresh.plot :=
          ((hplots x hx).2 hd).trans (hfresh x hx)
        rw [show d₁.plot? x.1 = some p from hp, Option.some.injEq] at hblank
        rw [hblank] at hline
        exact absurd rfl hline
    · have hnone := hothers key hkey
      rw [plot?_defaultCharts, show d₁.plot? key = some p from hp] at hnone
      exact absurd hnone (by simp [show key ∉ [employeeKey, sshKey, signsKey] from hkey])

/-- After the second draw the employees show the sample. -/
theorem Shows.refreshed {limit : Duration} (hs : d.Shows data false)
    (hr : Refreshing data.labels limit d d') (hn : d'.timeline.popDue? limit = none) :
    d'.Shows data true where
  plotted key values hpictured := by
    cases hpictured with
    | sample => exact hr.made hn
    | own hx hd hk =>
      rw [hr.others _ (hk rfl)]
      exact hs.plotted _ _ (.own hx hd nofun)
  only key p hp hline := by
    by_cases hkey : key = employeeKey
    · exact ⟨refreshSample, hkey ▸ .sample rfl⟩
    · rw [hr.others key hkey] at hp
      obtain ⟨values, hpictured⟩ := hs.only key p hp hline
      cases hpictured with
      | sample hr => cases hr
      | @own x hx hd _ => exact ⟨x.2, .own hx hd fun _ => hkey⟩

theorem Shows.rendering (hs : d.Shows data refresh) (hr : Run (new config) h d)
    {skipped : List (String × ChartError)} (hskips : LeftOut data.labels data.draws skipped) :
    (Rendering.mk skipped d).Of data refresh where
  skips := hskips
  nodup := hr.sorted_charts.nodup_keys.sublist (List.filter_sublist.map Prod.fst)
  shown e he := by
    obtain ⟨htarget, hline⟩ := (mem_visible hr).1 (show (e.1, e.2) ∈ _ from he)
    have hp : d.plot? e.1 = some e.2.plot := congrArg _ htarget
    obtain ⟨values, hpictured⟩ := hs.only e.1 _ hp hline
    obtain ⟨p, hp', hof⟩ := hs.plotted _ _ hpictured
    rw [hp, Option.some.injEq] at hp'
    exact ⟨values, hpictured, hp' ▸ hof⟩
  all _ key values hpictured := by
    obtain ⟨p, hp, hof⟩ := hs.plotted _ _ hpictured
    obtain ⟨target, htarget, rfl⟩ := Option.map_eq_some_iff.1 hp
    exact ⟨target, (mem_visible hr).2 ⟨htarget, line_ne_nil_of_plot hof⟩, hof⟩

/-- Data of which nothing can be drawn are rendered alike, refreshed or not. -/
theorem renderingOf_of_none {r : Rendering} (hr : r.Of data false)
    (hnone : ∀ x ∈ data.draws, ¬Drawable data.labels x.2) : r.Of data refresh where
  skips := hr.skips
  nodup := hr.nodup
  shown e he := by
    obtain ⟨values, hpictured, -⟩ := hr.shown e he
    generalize e.1 = key at hpictured
    cases hpictured with
    | sample hf => cases hf
    | own hx hd _ => exact absurd hd (hnone _ hx)
  all hex := by
    obtain ⟨x, hx, hd⟩ := hex
    exact absurd hd (hnone x hx)

/-- Nothing is drawn exactly if none of the data can be. -/
theorem drawn_isEmpty_iff
    (hi : ((withDefaultCharts config).initCharts data).result = .ok (report, d)) :
    report.drawn.isEmpty = true ↔ ∀ x ∈ data.draws, ¬Drawable data.labels x.2 := by
  obtain ⟨hskips, -⟩ := shows_of_initCharts hi
  obtain ⟨d₁, hdraws, -⟩ := parts_of_initCharts hi
  have hall := (drawnApart_of_drawAll (nodup_draws data) hdraws).splits.all.length_eq
  simp only [List.length_append, List.length_map] at hall
  rw [← hskips.length_eq_iff, List.isEmpty_iff, ← List.length_eq_zero_iff]
  show _ ↔ report.failed.length = data.draws.length
  omega

/-- After a batch on the default charts, the time of its second draw can pass. -/
theorem exists_refreshed (hr : Run (new config) h d) (hl : data.labels.length = 4)
    (hi : ((withDefaultCharts config).initCharts data).result = .ok (report, d)) :
    ∃ entries d', (d.advance config.refreshDelay).result = .ok (entries, d') ∧
      (∃ h', Run (new config) h' d') ∧ d'.Shows data true := by
  have hnow : d.now.nanos = 0 := congrArg Duration.nanos (now_of_initCharts hi)
  have hconfig := hr.config_eq
  have hroom : d.now.nanos + d.config.horizon ≤ Duration.longest.nanos := by
    rw [hnow, Nat.zero_add]
    exact Config.horizon_le_longest _
  have hdelay : config.refreshDelay.nanos ≤ d.config.horizon := by
    rw [hconfig]
    exact config.refreshDelay_le_horizon
  obtain ⟨limit, hlimit⟩ := exists_due hroom hdelay
  obtain ⟨entries, d', hadvance⟩ := hr.exists_advance hroom hlimit
  have hperform : (d.perform (.advance config.refreshDelay)).result = .ok (.ran entries, d') :=
    Work.result_bind_eq_ok.2 ⟨_, hadvance, rfl⟩
  refine ⟨entries, d', hadvance, ⟨_, hr.append (run_of_perform hperform)⟩, ?_⟩
  obtain ⟨_, d₁, hlimit', hdrains, rfl⟩ := result_advance_eq_ok.1 hadvance
  obtain rfl : limit = _ := Option.some.inj (hlimit.symm.trans hlimit')
  have hmounted : ((withDefaultCharts config).plot? employeeKey).isSome := by
    simp [plot?_defaultCharts]
  have hstart : (withDefaultCharts config).now.add? (withDefaultCharts config).config.refreshDelay =
      some limit := by
    rw [← now_of_initCharts hi]
    exact hlimit
  have hrefreshing := (refreshing_of_initCharts hr.sound rfl hmounted hstart hi).drains
    (takesFirst_popDue limit) hl hdrains
  have hshows := (shows_of_initCharts hi).2.refreshed hrefreshing hdrains.exhausted
  exact ⟨hshows.plotted, hshows.only⟩

theorem exists_rendering (config : Config) (data : ChartData) (refresh : Bool) :
    ∃ r, (Rendering.ofData config data refresh).result = .ok r ∧ r.Of data refresh := by
  obtain ⟨h₀, hr₀⟩ := run_defaultCharts config
  have hnow : (withDefaultCharts config).now.nanos = 0 := rfl
  have hroom : (withDefaultCharts config).now.nanos + (withDefaultCharts config).config.horizon ≤
      Duration.longest.nanos := by
    rw [hnow, Nat.zero_add]
    exact Config.horizon_le_longest _
  obtain ⟨report, d, hi⟩ := exists_initCharts hroom data
  have hperform : ((withDefaultCharts config).perform (.initCharts data)).result =
      .ok (.batch report, d) := Work.result_bind_eq_ok.2 ⟨_, hi, rfl⟩
  have hr := hr₀.append (run_of_perform hperform)
  obtain ⟨hskips, hshows⟩ := shows_of_initCharts hi
  have hplain := hshows.rendering hr hskips
  unfold Rendering.ofData
  simp only [Work.result_bind_eq_ok]
  by_cases hearly : (report.drawn.isEmpty || !refresh) = true
  · refine ⟨⟨report.failed, d⟩, ⟨_, hi, by simp only [hearly, if_true, Work.result_pure]⟩, ?_⟩
    cases refresh with
    | false => exact hplain
    | true => exact renderingOf_of_none hplain ((drawn_isEmpty_iff hi).1 (by simpa using hearly))
  · obtain ⟨hdrawn, rfl⟩ : ¬report.drawn.isEmpty = true ∧ refresh = true := by
      simpa using hearly
    obtain ⟨x, hx, hd⟩ : ∃ x ∈ data.draws, Drawable data.labels x.2 := by
      simpa [drawn_isEmpty_iff hi] using hdrawn
    obtain ⟨entries, d', hadvance, ⟨h', hr'⟩, hshows'⟩ := exists_refreshed hr hd.length_labels hi
    refine ⟨⟨report.failed, d'⟩, ⟨_, hi, ?_⟩, hshows'.rendering hr' hskips⟩
    dsimp only
    rw [if_neg hearly, Work.result_bind_eq_ok]
    exact ⟨(entries, d'), hadvance, rfl⟩

end Dashboard

end Sparkboard
