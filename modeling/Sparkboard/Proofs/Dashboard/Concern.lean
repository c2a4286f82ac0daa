import Sparkboard.Proofs.Dashboard.History
import Sparkboard.Proofs.Dashboard.Parts
/-!
# What operations are addressed to

Every operation is addressed to some of the parts of a dashboard, and the passing of time to all of
them.  An operation that is not addressed to a part is not seen from it, and no time passes
(`agree_of_perform`).
-/

namespace Sparkboard

/-- Is the operation addressed to the part? -/
def Operation.concerns (part : Part) : Operation → Bool
  | .mount key _ | .unmount key | .draw _ _ key => part = .chart key
  | .initCharts _ => part ∈ [.chart employeeKey, .chart sshKey, .chart signsKey]
  | .loaderStart | .loaderStep | .loaderFinishSuccess | .loaderHide => part = .loader
  | .startLoadingBar => part = .bars
  | .advance _ | .runUntilIdle => true

namespace Dashboard

variable {d d' : Dashboard} {part : Part} {op : Operation} {answer : Answer}

theorem agree_of_draw {labels : List String} {values : List Float} {key : String}
    {outcome : Except ChartError Nat} (h : (d.draw labels values key).result = .ok (outcome, d'))
    (hk : part ≠ .chart key) : Agree part d d' ∧ d'.now = d.now :=
  ⟨(draws_of_draw h).agree hk, (draws_of_draw h).now⟩

theorem agree_of_drawAll {labels : List String} {draws : List (String × List Float)}
    {report : BatchReport} (h : (d.drawAll labels draws).result = .ok (report, d'))
    (hk : ∀ x ∈ draws, part ≠ .chart x.1) : Agree part d d' ∧ d'.now = d.now := by
  induction draws generalizing d report with
  | nil =>
    cases h
    exact ⟨.refl part _, rfl⟩
  | cons x draws ih =>
    obtain ⟨_, d₁, hdraw, others, hrest⟩ := draw_of_drawAll h
    obtain ⟨hfirst, hnow⟩ := agree_of_draw hdraw (hk x (List.mem_cons_self ..))
    obtain ⟨hothers, hnow'⟩ := ih hrest fun y hy => hk y (List.mem_cons_of_mem _ hy)
    exact ⟨hfirst.trans hothers, hnow'.trans hnow⟩

theorem agree_of_moveLoader (state : LoaderState)
    (h : (d.moveLoader (d.loader.move state)).result = .ok d') (hl : part ≠ .loader) :
    Agree part d d' ∧ d'.now = d.now := by
  rw [result_moveLoader, Except.ok.injEq] at h
  rw [← h]
  exact ⟨agree_withLoader state hl, now_withLoader d state⟩

/-- An operation is not seen from a part that it is not addressed to. -/
theorem agree_of_perform (h : (d.perform op).result = .ok (answer, d'))
    (hc : op.concerns part = false) : Agree part d d' ∧ d'.now = d.now := by
  cases op with
  | mount key target =>
    cases h
    exact ⟨agree_mount target (of_decide_eq_false hc), rfl⟩
  | unmount key =>
    cases h
    exact ⟨agree_unmount (of_decide_eq_false hc), rfl⟩
  | draw labels values key =>
    obtain ⟨⟨_, d₁⟩, hd, he⟩ := Work.result_bind_eq_ok.1 h
    cases he
    exact agree_of_draw hd (of_decide_eq_false hc)
  | initCharts data =>
    have hnot : part ∉ [Part.chart employeeKey, .chart sshKey, .chart signsKey] :=
      of_decide_eq_false hc
    simp only [List.mem_cons, List.not_mem_nil, or_false, not_or] at hnot
    obtain ⟨hemployee, hssh, hsigns⟩ := hnot
    obtain ⟨⟨_, d₁⟩, hi, he⟩ := Work.result_bind_eq_ok.1 h
    cases he
    obtain ⟨d₂, hdraws, hafter⟩ := parts_of_initCharts hi
    obtain ⟨hdrawn, hnow⟩ := agree_of_drawAll hdraws fun x hx => by
      simp only [List.mem_cons, List.not_mem_nil, or_false] at hx
      rcases hx with rfl | rfl | rfl <;> assumption
    obtain ⟨due, -, rfl⟩ := result_after_eq_ok.1 hafter
    exact ⟨hdrawn.trans (agree_push due (decide_eq_false hemployee)), hnow⟩
  | loaderStart | loaderStep | loaderHide =>
    obtain ⟨_, hm, he⟩ := Work.result_bind_eq_ok.1 h
    cases he
    exact agree_of_moveLoader _ hm (of_decide_eq_false hc)
  | loaderFinishSuccess =>
    have hl : part ≠ .loader := of_decide_eq_false hc
    obtain ⟨_, hm, he⟩ := Work.result_bind_eq_ok.1 h
    cases he
    obtain ⟨due, -, rfl⟩ := result_loaderFinishSuccess.1 hm
    exact ⟨(agree_withLoader .success hl).trans (agree_push due (decide_eq_false hl)),
      now_withLoader d .success⟩
  | startLoadingBar =>
    have hb : part ≠ .bars := of_decide_eq_false hc
    obtain ⟨⟨_, d₁⟩, hs, he⟩ := Work.result_bind_eq_ok.1 h
    cases he
    obtain ⟨_, hafter, he⟩ := Work.result_bind_eq_ok.1 hs
    cases he
    obtain ⟨due, -, rfl⟩ := result_after_eq_ok.1 hafter
    exact ⟨(agree_bars hb).trans (agree_push due (decide_eq_false hb)), rfl⟩
  | advance | runUntilIdle => cases hc

end Dashboard

end Sparkboard
