import Sparkboard.Proofs.Dashboard.ChartRuns
import Sparkboard.Proofs.Dashboard.History
/-!
# The numbers of draws

The draws of a key that come off are numbered one, two, three for the whole life of a dashboard,
whatever is mounted under the key meanwhile.  The number is kept twice, as a count of its own and on
the chart.  The count is always the number of draws (`Run.lastGeneration_eq`); the chart starts
again from zero with each mount and shows the count from its next draw on
(`generation_counts_drawings`).
-/

namespace Sparkboard

namespace Dashboard

variable {config : Config} {h : History} {d d' : Dashboard} {key : String} {target : ChartTarget}
  {ops : List Operation} {answers : List Answer}

/-- The draws of a key are counted, and nothing else is. -/
theorem Run.lastGeneration_eq (hr : Run (new config) h d) (key : String) :
    d.lastGeneration key = (h.drawings key).length := by
  have hlength := congrArg List.length (hr.numbered key)
  rw [List.length_map, List.length_range'] at hlength
  exact hlength.symm

/-- The number of a draw is its place among the draws of its key. -/
theorem Run.generation_getElem? (hr : Run (new config) h d) {i : Nat} {x : Drawing}
    (hx : (h.drawings key)[i]? = some x) : x.generation = i + 1 := by
  obtain ⟨hi, -⟩ := List.getElem?_eq_some_iff.1 hx
  have hnumber : ((h.drawings key).map Drawing.generation)[i]? = some x.generation := by
    rw [List.getElem?_map, hx]
    rfl
  rw [hr.numbered key, hr.lastGeneration_eq key, List.getElem?_range' hi,
    Option.some.injEq] at hnumber
  omega

/-- A draw takes the number behind those of all earlier draws of its key. -/
theorem Run.generation_of_draw (hr : Run (new config) h d) {labels : List String}
    {values : List Float} {generation : Nat}
    (hd : (d.draw labels values key).result = .ok (.ok generation, d')) :
    generation = (h.drawings key).length + 1 := by
  rw [← hr.lastGeneration_eq key]
  cases draws_of_draw hd
  rfl

/-- A chart shows the count of the draws of its key, unless none came off since it was mounted. -/
theorem Run.generation_of_chart (hr : Run (new config) h d) (hc : d.target? key = some target) :
    target.root.generation =
      match h.lastChange? key with
      | some (.drawn _) => (h.drawings key).length
      | _ => 0 := by
  rcases (hr.shows key).mounted_or_drawn hc with ⟨given, hlast, rfl⟩ | ⟨x, hlast, hx⟩
  · rw [hlast]
  · rw [hlast, hx]
    -- what happened last to the chart is the last of the draws
    obtain ⟨before, hbefore⟩ :=
      List.getLast?_eq_some_iff.1 (History.lastDrawing?_of_lastChange? hlast)
    have hplace : (h.drawings key)[before.length]? = some x := by
      rw [hbefore, List.getElem?_concat_length]
    rw [hr.generation_getElem? hplace, hbefore, List.length_append]
    rfl

/-- No number of a draw is ever used again.  The draws of a key are numbered from one in the order
in which they come off, so a draw is told the number behind those of all earlier ones; a draw that
fails leaves the dashboard as it was, the count included; and a chart carries zero until it is
drawn, whatever its target came with, and then the number of draws of its key so far. -/
theorem generation_counts_drawings
    (h : ((new config).performAll ops).result = .ok (answers, d)) (key : String) :
    (∀ i x, (((new config).history ops).drawings key)[i]? = some x → x.generation = i + 1) ∧
    (∀ earlier before later labels values,
      (new config).history ops = earlier ++ ⟨before, .draw labels values key⟩ :: later →
      (∀ generation after, (before.draw labels values key).result = .ok (.ok generation, after) →
        generation = (History.drawings earlier key).length + 1) ∧
      ∀ e after, (before.draw labels values key).result = .ok (.error e, after) →
        after = before) ∧
    ∀ target, d.target? key = some target →
      target.root.generation =
        match ((new config).history ops).lastChange? key with
        | some (.drawn _) => (((new config).history ops).drawings key).length
        | _ => 0 := by
  have hr := run_of_performAll h
  refine ⟨fun i x => hr.generation_getElem?, ?_, fun target => hr.generation_of_chart⟩
  intro earlier before later labels values hsplit
  rw [hsplit] at hr
  refine ⟨fun generation after => hr.split.1.generation_of_draw, ?_⟩
  intro e after hd
  cases draws_of_draw hd
  rfl

/-- A chart that is drawn, taken off and put back with a number that it never had, a draw that fails
before and after. -/
def renumbered : List Operation := [
  .mount sshKey .fresh,
  .draw ["1", "2", "3", "4"] [1.0, 2.0, 3.0, 4.0] sshKey,
  .draw ["1", "2", "3", "4"] [1.0, 2.0, 3.0, -4.0] sshKey,
  .unmount sshKey,
  .draw ["1", "2", "3", "4"] [1.0, 2.0, 3.0, 4.0] sshKey,
  .mount sshKey { ChartTarget.fresh with root := { ChartTarget.fresh.root with generation := 7 } },
  .draw ["1", "2", "3", "4"] [4.0, 3.0, 2.0, 1.0] sshKey]

/-- The last draw is the second one of its key. -/
theorem generation_renumbered :
    ∃ answers d target x, ((new .default).performAll renumbered).result = .ok (answers, d) ∧
      d.target? sshKey = some target ∧ target.root.generation = 2 ∧
      (((new .default).history renumbered).drawings sshKey)[1]? = some x ∧ x.generation = 2 := by
  obtain ⟨answers, d, target, x, hrun, hc, hx⟩ : ∃ answers d target x,
      ((new .default).performAll renumbered).result = .ok (answers, d) ∧
        d.target? sshKey = some target ∧
        (((new .default).history renumbered).drawings sshKey)[1]? = some x :=
    ⟨_, _, _, _, rfl, rfl, rfl⟩
  obtain ⟨hnumbers, -, hchart⟩ := generation_counts_drawings hrun sshKey
  exact ⟨answers, d, target, x, hrun, hc, hchart target hc, hx, hnumbers 1 x hx⟩

end Dashboard

end Sparkboard
