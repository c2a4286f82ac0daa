import Sparkboard.Proofs.Dashboard.Step
/-!
# Runs

A run is a sequence of steps, with its history.  Runs are extended at the end, so what every step
keeps is shown of every run by induction, and they can be joined.
-/

namespace Sparkboard

namespace Dashboard

/-- A run from `start` to the last state, with its history. -/
inductive Run (start : Dashboard) : History → Dashboard → Prop where
  | nil : Run start [] start
  | snoc {h : History} {d d' : Dashboard} {deed : Deed} (hr : Run start h d) (hs : Step d deed d') :
    Run start (h ++ [⟨d, deed⟩]) d'

variable {d d₁ d' : Dashboard} {h h' : History} {deed : Deed}

theorem Run.append (hr : Run d h d₁) (hr' : Run d₁ h' d') : Run d (h ++ h') d' := by
  induction hr' with
  | nil => rwa [List.append_nil]
  | snoc _ hs ih =>
    rw [← List.append_assoc]
    exact ih.snoc hs

theorem Run.cons (hs : Step d deed d₁) (hr : Run d₁ h d') : Run d (⟨d, deed⟩ :: h) d' :=
  (Run.nil.snoc hs).append hr

theorem Run.split {later : History} (hr : Run d (h ++ ⟨d₁, deed⟩ :: later) d') :
    Run d h d₁ ∧ ∃ d₂, Step d₁ deed d₂ := by
  generalize hall : h ++ ⟨d₁, deed⟩ :: later = all at hr
  induction hr generalizing later with
  | nil => exact absurd hall (List.append_ne_nil_of_right_ne_nil h (List.cons_ne_nil _ _))
  | @snoc all d₀ d' last hr hs ih =>
    rcases List.eq_nil_or_concat later with rfl | ⟨later, m, rfl⟩
    · obtain ⟨rfl, hm⟩ := List.append_inj' hall rfl
      rw [List.cons.injEq, Moment.mk.injEq] at hm
      obtain ⟨⟨rfl, rfl⟩, -⟩ := hm
      exact ⟨hr, d', hs⟩
    · rw [List.concat_eq_append, ← List.cons_append, ← List.append_assoc] at hall
      obtain ⟨hall, -⟩ := List.append_inj' hall rfl
      exact ih hall

/-- At each of its moments, a run had come so far and went on with a step. -/
theorem Run.at_moment {m : Moment} (hr : Run d h d') (hm : m ∈ h) :
    ∃ earlier d₂, Run d earlier m.before ∧ Step m.before m.deed d₂ := by
  obtain ⟨earlier, later, hall⟩ := List.append_of_mem hm
  rw [hall] at hr
  obtain ⟨hbefore, d₂, hstep⟩ := hr.split
  exact ⟨earlier, d₂, hbefore, hstep⟩

theorem replay_cons (ha : (d.act deed).result = .ok d₁) (rest : List Deed) :
    d.replay (deed :: rest) = ⟨d, deed⟩ :: d₁.replay rest := by
  rw [replay]
  simp only [ha]

theorem Run.replay_cons (ht : d.Timely deed) (ha : (d.act deed).result = .ok d₁) {rest : List Deed}
    (hr : Run d₁ (d₁.replay rest) d') : Run d (d.replay (deed :: rest)) d' := by
  rw [Dashboard.replay_cons ha]
  exact .cons (step_of_act ht ha) hr

theorem Run.replay_single (ht : d.Timely deed) (ha : (d.act deed).result = .ok d') :
    Run d (d.replay [deed]) d' :=
  .replay_cons ht ha .nil

theorem result_act_draw {labels : List String} {values : List Float} {key : String}
    {outcome : Except ChartError Nat}
    (hr : (d.draw labels values key).result = .ok (outcome, d')) :
    (d.act (.draw labels values key)).result = .ok d' :=
  Work.result_bind_eq_ok.2 ⟨_, hr, rfl⟩

/-- The deeds that run a task are done one after the other, and do what running it does. -/
theorem replay_running_eq {entry : Entry Task} {timeline : Timeline Task}
    (hp : d.timeline.pop? = some (entry, timeline))
    (hrun : ({ d with timeline }.run entry.task).result = .ok d₁) (rest : List Deed) :
    ∃ first : History, d.replay (Deed.running entry ++ rest) = first ++ d₁.replay rest ∧
      first.map Moment.deed = Deed.running entry ∧ Run d first d₁ := by
  have ht : d.Timely (.fire entry) := by
    show d.timeline.pending.head? = some entry
    rw [(Timeline.pop?_eq_some_iff.1 hp).1]
    rfl
  rw [← popped_eq hp] at hrun
  cases hk : entry.task with
  | redraw key labels values =>
    rw [hk] at hrun
    obtain ⟨⟨outcome, d₂⟩, hd, he⟩ := Work.result_bind_eq_ok.1 hrun
    cases he
    have hf : (d.act (.fire entry)).result = .ok d.popped := by
      simp only [act, hk]
      rfl
    have hrunning : Deed.running entry = [.fire entry, .draw labels values key] := by
      simp only [Deed.running, hk]
    have hact := result_act_draw hd
    have hdraw : Step d.popped (.draw labels values key) d₁ := step_of_act trivial hact
    refine ⟨[⟨d, .fire entry⟩, ⟨d.popped, .draw labels values key⟩], ?_, hrunning.symm,
      .cons (step_of_act ht hf) (.cons hdraw .nil)⟩
    rw [hrunning]
    exact (replay_cons hf _).trans (congrArg _ (replay_cons hact _))
  | clearAnimation | autoIdle | loadingTick =>
    have hf : (d.act (.fire entry)).result = .ok d₁ := by
      simp only [act, hk]
      rw [hk] at hrun
      exact hrun
    have hrunning : Deed.running entry = [.fire entry] := by
      simp only [Deed.running, hk]
    refine ⟨[⟨d, .fire entry⟩], ?_, hrunning.symm, .cons (step_of_act ht hf) .nil⟩
    rw [hrunning]
    exact replay_cons hf _

theorem Run.replay_running {entry : Entry Task} {timeline : Timeline Task} {rest : List Deed}
    (hp : d.timeline.pop? = some (entry, timeline))
    (hrun : ({ d with timeline }.run entry.task).result = .ok d₁)
    (hr : Run d₁ (d₁.replay rest) d') : Run d (d.replay (Deed.running entry ++ rest)) d' := by
  obtain ⟨first, hreplay, -, hfirst⟩ := replay_running_eq hp hrun rest
  rw [hreplay]
  exact hfirst.append hr

theorem Run.fires {start : Dashboard} {entry : Entry Task} {timeline : Timeline Task}
    (hr : Run start h d) (hp : d.timeline.pop? = some (entry, timeline))
    (hrun : ({ d with timeline }.run entry.task).result = .ok d₁) : ∃ h', Run start h' d₁ := by
  have hfire : Run d (d.replay (Deed.running entry ++ [])) d₁ := .replay_running hp hrun .nil
  exact ⟨_, hr.append hfire⟩

end Dashboard

end Sparkboard
