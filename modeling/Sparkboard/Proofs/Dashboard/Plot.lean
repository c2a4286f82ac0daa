import Sparkboard.Proofs.Chart.Checks
import Sparkboard.Proofs.Dashboard.ChartRuns
import Sparkboard.Proofs.Dashboard.History
/-!
# What a chart shows

The plot of a chart is its line, the area below it and the labels along its axis.  A mount brings a
plot, a draw that comes off makes a new one from its own labels and values alone, and nothing else
touches it (`Step.replots`).  So a chart shows exactly the last draw since it was mounted, or what
it was mounted with (`plot_of_last_drawing`).
-/

namespace Sparkboard

/-- What a chart shows, its root apart. -/
structure Plot where
  line : List Point
  area : List Point
  axis : List AxisLabel
  deriving DecidableEq

def ChartTarget.plot (t : ChartTarget) : Plot := ⟨t.line, t.area, t.axis⟩

/-- Is this the plot of these labels and values, and of nothing else?  The line goes through the
scaled values, the area is closed along the baseline, and each slot has its label. -/
structure Plot.Of (p : Plot) (labels : List String) (values : List Float) : Prop where
  line : ∃ series, Series.ofList values = .ok series ∧ p.line = series.points
  area : p.area = ⟨10.0, 110.0⟩ :: (p.line ++ [⟨230.0, 110.0⟩])
  labels_length : labels.length = 4
  axis : p.axis = [0.0, 70.0, 140.0, 210.0].zipWith (fun x text => ⟨x, 120.0, text⟩) labels

/-- What a change of a chart does to its plot. -/
def Replots (before : Option Plot) : Option ChartChange → Option Plot → Prop
  | none, after => after = before
  | some (.mounted given), after => after = some given.plot
  | some .unmounted, after => after = none
  | some (.drawn x), after => before.isSome ∧ ∃ p, after = some p ∧ p.Of x.labels x.values

namespace Dashboard

variable {config : Config} {h : History} {d d' : Dashboard} {deed : Deed} {key : String}
  {x : Drawing} {labels : List String} {values : List Float} {texts : LabelSet} {series : Series}
  {target : ChartTarget}

def plot? (d : Dashboard) (key : String) : Option Plot :=
  (d.target? key).map ChartTarget.plot

/-! ## One draw -/

/-- A draw plots its labels and values, whatever the target held. -/
theorem plot_shown (h : d.checkDraw labels values key = .ok (texts, series, target)) :
    (d.shown key texts series target).plot.Of labels values := by
  obtain ⟨htexts, hseries, -⟩ := checkDraw_eq_ok_iff.1 h
  obtain rfl := ofList_labelSet_eq_ok_iff.1 htexts
  exact ⟨⟨series, hseries, rfl⟩, rfl, rfl, rfl⟩

/-- If a step is on record as a draw, then this draw passed its check and was made. -/
theorem Step.drawn_of_change (hs : Step d deed d')
    (hx : Moment.chartChange? ⟨d, deed⟩ key = some (.drawn x)) :
    ∃ texts series target due, d.checkDraw x.labels x.values key = .ok (texts, series, target) ∧
      d' = d.drawn key texts series target due := by
  cases hs with
  | mount k | unmount k =>
    unfold Moment.chartChange? at hx
    dsimp only at hx
    split at hx <;> cases hx
  | planRedraw | moveLoader | finishLoader | startBar | fire | takeRedraw | wait => cases hx
  | @draw labels values k outcome _ hdraws =>
    have hresult := hdraws.result
    unfold Moment.chartChange? Moment.drawing? at hx
    dsimp only at hx
    rw [hresult] at hx
    by_cases hk : k = key
    · subst hk
      cases hdraws with
      | refused => simp at hx
      | came hc hd =>
        simp only [if_true, Option.map_some, Option.some.injEq, ChartChange.drawn.injEq] at hx
        subst hx
        exact ⟨_, _, _, _, hc, rfl⟩
    · rw [if_neg hk] at hx
      cases hx

/-! ## Every step -/

theorem plot?_mount (d : Dashboard) (key : String) (given : ChartTarget) :
    (d.mount key given).2.plot? key = some given.plot := by
  unfold plot? target?
  rw [show (d.mount key given).2.charts.get? key = some _ from
    (Table.get?_insert ..).trans (if_pos rfl)]
  rfl

theorem plot?_unmount (d : Dashboard) (key : String) :
    (d.unmount key).2.plot? key = none := by
  unfold plot? target?
  rw [show (d.unmount key).2.charts.get? key = none from
    (Table.get?_erase ..).trans (if_pos rfl)]
  rfl

theorem plot?_drawn (due : Duration) :
    (d.drawn key texts series target due).plot? key =
      some (d.shown key texts series target).plot :=
  congrArg _ (get?_drawn texts series target due)

/-- A step does to the plot of a chart what the change does that it is on record as. -/
theorem Step.replots (hs : Step d deed d') (key : String) :
    Replots (d.plot? key) (Moment.chartChange? ⟨d, deed⟩ key) (d'.plot? key) := by
  have ha := affects_of_step hs key
  cases hchange : Moment.chartChange? ⟨d, deed⟩ key with
  | none =>
    rw [hchange] at ha
    cases ha with
    | nothing hsame => exact congrArg _ hsame.chart
    | @cleared _ _ target _ _ hc =>
      have hbefore : d.plot? key = some target.plot := congrArg _ hc
      rw [hbefore]
      exact congrArg _ ((Table.get?_insert ..).trans (if_pos rfl))
    | missed => exact rfl
  | some change =>
    cases change with
    | mounted given =>
      rw [hchange] at ha
      cases ha
      exact plot?_mount d key given
    | unmounted =>
      rw [hchange] at ha
      cases ha
      exact plot?_unmount d key
    | drawn x =>
      obtain ⟨texts, series, target, due, hc, rfl⟩ := hs.drawn_of_change hchange
      have hbefore : d.plot? key = some target.plot :=
        congrArg _ (get?_of_checkDraw hc)
      rw [hbefore, plot?_drawn]
      exact ⟨rfl, _, rfl, plot_shown hc⟩

/-! ## Every run -/

/-- A chart that is mounted was mounted with some target, and since then nothing happened to it but
draws.  It shows the last of them, or else this target. -/
theorem Run.plotted (hr : Run (new config) h d) {p : Plot} (hp : d.plot? key = some p) :
    ∃ (earlier : List ChartChange) (given : ChartTarget) (drawings : List Drawing),
      h.changes key = earlier ++ .mounted given :: drawings.map .drawn ∧
        match drawings.getLast? with
        | none => p = given.plot
        | some x => p.Of x.labels x.values := by
  induction hr generalizing p with
  | nil => cases hp
  | @snoc h d d' deed hr hs ih =>
    have hreplots := hs.replots key
    rw [History.changes_snoc]
    generalize Moment.chartChange? ⟨d, deed⟩ key = change at hreplots ⊢
    cases change with
    | none =>
      rw [Option.toList_none, List.append_nil]
      exact ih (hreplots ▸ hp)
    | some change =>
      rw [Option.toList_some]
      cases change with
      | mounted given =>
        have hnew : d'.plot? key = some given.plot := hreplots
        rw [hp, Option.some.injEq] at hnew
        exact ⟨h.changes key, given, [], rfl, hnew⟩
      | unmounted =>
        have hgone : d'.plot? key = none := hreplots
        rw [hp] at hgone
        cases hgone
      | drawn x =>
        obtain ⟨hmounted, q, hq, hof⟩ := hreplots
        obtain ⟨before, hbefore⟩ := Option.isSome_iff_exists.1 hmounted
        obtain ⟨earlier, given, drawings, hchanges, -⟩ := ih hbefore
        rw [hp, Option.some.injEq] at hq
        subst hq
        refine ⟨earlier, given, drawings ++ [x], ?_, ?_⟩
        · rw [hchanges, List.map_append, List.append_assoc]
          rfl
        · rw [List.getLast?_concat]
          exact hof

/-- A chart that is mounted shows the last draw that came off since it was mounted, and no trace of
what its target held before; if there was none, it shows what it was mounted with.  Whatever is not
a mount, an unmount or a draw that came off leaves the plot alone. -/
theorem plot_of_last_drawing {ops : List Operation} {answers : List Answer}
    (h : ((new config).performAll ops).result = .ok (answers, d)) (key : String) :
    (∀ target, d.target? key = some target →
      ∃ (earlier : List ChartChange) (given : ChartTarget) (drawings : List Drawing),
        ((new config).history ops).changes key =
          earlier ++ .mounted given :: drawings.map .drawn ∧
        match drawings.getLast? with
        | none => target.plot = given.plot
        | some x => target.plot.Of x.labels x.values) ∧
    ∀ m ∈ (new config).history ops, m.chartChange? key = none →
      ∀ after, (m.before.act m.deed).result = .ok after →
        after.plot? key = m.before.plot? key := by
  have hr := run_of_performAll h
  refine ⟨?_, ?_⟩
  · intro target hc
    exact hr.plotted (congrArg _ hc)
  · intro m hm hnone after hact
    obtain ⟨_, _, -, hstep⟩ := hr.at_moment hm
    have hreplots := (step_of_act hstep.timely hact).replots key
    rw [hnone] at hreplots
    exact hreplots

/-- A target with five points and a label, mounted and drawn by a batch, and the second draw of the
batch, with a draw between them that is refused. -/
def replotted : List Operation := [
  .mount employeeKey ⟨.fresh, [⟨1.0, 1.0⟩, ⟨2.0, 2.0⟩, ⟨3.0, 3.0⟩, ⟨4.0, 4.0⟩, ⟨5.0, 5.0⟩], [],
    [⟨0.0, 0.0, "old"⟩]⟩,
  .initCharts ⟨["a", "b", "c", "d"], [1.0, 2.0, 3.0, 4.0], [], []⟩,
  .draw ["e", "f", "g", "h"] [1.0, 1.0, 1.0, -1.0] employeeKey,
  .loaderStart,
  .advance (.ofMillis 1500)]

/-- The chart shows the second draw of the batch. -/
theorem plot_replotted :
    ∃ answers d target, ((new .default).performAll replotted).result = .ok (answers, d) ∧
      d.target? employeeKey = some target ∧
      target.plot.Of ["a", "b", "c", "d"] refreshSample := by
  obtain ⟨answers, d, target, hrun, hc⟩ : ∃ answers d target,
      ((new .default).performAll replotted).result = .ok (answers, d) ∧
        d.target? employeeKey = some target := ⟨_, _, _, rfl, rfl⟩
  obtain ⟨x, hlast, hlabels, hvalues⟩ : ∃ x,
      ((new .default).history replotted).lastChange? employeeKey = some (.drawn x) ∧
        x.labels = ["a", "b", "c", "d"] ∧ x.values = refreshSample := ⟨_, rfl, rfl, rfl⟩
  refine ⟨answers, d, target, hrun, hc, ?_⟩
  obtain ⟨earlier, given, drawings, hchanges, hplot⟩ :=
    (plot_of_last_drawing hrun employeeKey).1 target hc
  rw [History.lastChange?, hchanges] at hlast
  rcases List.eq_nil_or_concat drawings with rfl | ⟨before, y, rfl⟩
  · rw [List.map_nil, List.getLast?_concat] at hlast
    cases hlast
  · rw [List.concat_eq_append] at hlast hplot
    rw [List.map_append, ← List.cons_append, ← List.append_assoc, List.map_singleton,
      List.getLast?_concat, Option.some.injEq, ChartChange.drawn.injEq] at hlast
    rw [List.getLast?_concat, hlast] at hplot
    rw [← hlabels, ← hvalues]
    exact hplot

end Dashboard

end Sparkboard
