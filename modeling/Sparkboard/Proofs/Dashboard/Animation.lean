import Sparkboard.Proofs.Dashboard.ChartRuns
import Sparkboard.Proofs.Dashboard.History
import Sparkboard.Proofs.Dashboard.TimelineRuns
/-!
# Who takes an animation off

The animation of a chart belongs to the draw that the chart shows.  It runs as long as the clear of
this draw waits, and no other clear touches it (`animated_iff_clear_waits`).

A chart that was not drawn since it was mounted has no clear.  If it was mounted in the middle of an
animation, the animation stays, even when nothing is left to do (`animated_when_idle_iff`).
-/

namespace Sparkboard

namespace Dashboard

variable {config : Config} {h : History} {d d' : Dashboard} {key : String} {target : ChartTarget}
  {ops : List Operation} {answers : List Answer}

/-- A chart that was drawn shows the latest of its draws. -/
theorem Run.lastDrawing (hr : Run (new config) h d) (hc : d.charts.get? key = some target)
    (hg : target.root.generation ≠ 0) :
    ∃ x, h.lastDrawing? key = some x ∧ x.generation = target.root.generation := by
  rcases (hr.shows key).mounted_or_drawn hc with ⟨given, -, htarget⟩ | ⟨x, hl, hx⟩
  · rw [htarget] at hg
    exact absurd rfl hg
  · exact ⟨x, History.lastDrawing?_of_lastChange? hl, hx.symm⟩

/-- The animation of a chart that was drawn runs as long as the clear of the latest draw waits,
which is due when the time of the draw is over.  So right after time has passed, the chart is
animated exactly if this time is not over. -/
theorem animated_iff_clear_waits
    (h : ((new config).performAll ops).result = .ok (answers, d))
    (hc : d.target? key = some target) (hg : target.root.generation ≠ 0) :
    ∃ x due, ((new config).history ops).lastDrawing? key = some x ∧
      x.generation = target.root.generation ∧
      x.time.add? config.animator.clearAfter = some due ∧
      (target.root.animation.isSome ↔
        ∃ e ∈ d.timeline.pending, e.task = .clearAnimation key target.root.generation) ∧
      d.timeline.waiting (.clearAnimation key target.root.generation) ≤ 1 ∧
      (∀ e ∈ d.timeline.pending,
        e.task = .clearAnimation key target.root.generation → e.due = due) ∧
      ∀ dt, ops.getLast? = some (.advance dt) → (target.root.animation.isSome ↔ d.now < due) := by
  have hr := run_of_performAll h
  obtain ⟨x, hlast, hx⟩ := hr.lastDrawing hc hg
  have hmem : x ∈ ((new config).history ops).drawings key := List.mem_of_getLast? hlast
  obtain ⟨due, hd, hwaits⟩ := hr.clear_waits hmem
  rw [hx] at hwaits
  have hanimated := hr.animated_iff hc hg
  rw [exists_clear_iff] at hanimated
  have hdue : ∀ e ∈ d.timeline.pending,
      e.task = .clearAnimation key target.root.generation → e.due = due := by
    intro e he ht
    have hclear : e ∈ d.clears key := mem_clears.2 ⟨he, _, ht⟩
    rw [← hx] at ht
    exact hr.clear_due hmem hd hclear ht
  refine ⟨x, due, hlast, hx, hd, hanimated, hr.waiting_clear_le_one key _, hdue, ?_⟩
  intro dt hl
  rw [hanimated]
  constructor
  · intro hex
    obtain ⟨e, he, ht⟩ := hex
    rw [← hdue e he ht]
    exact now_lt_due hr.sound h hl e he
  · intro hlt
    rcases hwaits with hclear | hle
    · exact exists_clear_iff.1 hclear
    · rw [Duration.lt_def] at hlt
      rw [Duration.le_def] at hle
      omega

/-- A chart, half a second after its draw. -/
def halfway : List Operation := [
  .mount sshKey .fresh,
  .draw ["1", "2", "3", "4"] [1.0, 2.0, 3.0, 4.0] sshKey,
  .advance (.ofMillis 500)]

/-- The chart is drawn, and the time of the draw is not over. -/
theorem animated_halfway :
    match ((new .default).performAll halfway).result with
    | .ok (_, d) => ∃ target x due, d.target? sshKey = some target ∧
        target.root.generation ≠ 0 ∧
        ((new .default).history halfway).lastDrawing? sshKey = some x ∧
        x.time.add? Config.default.animator.clearAfter = some due ∧
        (target.root.animation.isSome ↔ d.now < due)
    | .error _ => False := by
  obtain ⟨x, due, hlast, -, hd, -, -, -, hnow⟩ :=
    @animated_iff_clear_waits .default _ sshKey _ halfway _ rfl rfl (by decide)
  exact ⟨_, x, due, rfl, by decide, hlast, hd, hnow (.ofMillis 500) rfl⟩

/-! ## Charts at rest -/

/-- When nothing is left to do, a chart is animated exactly if it was mounted in the middle of an
animation and not drawn since. -/
theorem animated_when_idle_iff
    (h : ((new config).performAll ops).result = .ok (answers, d))
    (hl : ops.getLast? = some .runUntilIdle) (hc : d.target? key = some target) :
    target.root.animation.isSome ↔
      ∃ given, ((new config).history ops).lastChange? key = some (.mounted given) ∧
        given.root.animation.isSome := by
  have hr := run_of_performAll h
  have hidle := pending_of_runUntilIdle h hl
  rcases (hr.shows key).mounted_or_drawn hc with ⟨given, hlast, htarget⟩ | ⟨x, hlast, hx⟩
  · rw [hlast, htarget]
    constructor
    · intro hanimated
      exact ⟨given, rfl, hanimated⟩
    · intro hex
      obtain ⟨given', heq, hanimated⟩ := hex
      cases heq
      exact hanimated
  · have hmem : x ∈ ((new config).history ops).drawings key :=
      List.mem_of_getLast? (History.lastDrawing?_of_lastChange? hlast)
    have hpos := (hr.generation_le hmem).1
    have hg : target.root.generation ≠ 0 := by omega
    rw [hr.animated_iff hc hg, hlast]
    constructor
    · intro hex
      obtain ⟨e, he, -⟩ := hex
      rw [mem_clears, hidle] at he
      cases he.1
    · intro hex
      obtain ⟨given, heq, -⟩ := hex
      cases heq

/-- A chart that is taken off in the middle of its animation. -/
def interruption : List Operation := [
  .mount sshKey .fresh,
  .draw ["1", "2", "3", "4"] [1.0, 2.0, 3.0, 4.0] sshKey,
  .unmount sshKey]

def interrupted : ChartTarget :=
  match ((new .default).performAll interruption).result with
  | .ok ([_, _, .target (some target)], _) => target
  | _ => .fresh

/-- The chart is put back, and all that is left is run. -/
def resumption : List Operation := interruption ++ [.mount sshKey interrupted, .runUntilIdle]

/-- The chart was mounted in the middle of its animation, and stays animated. -/
theorem animated_after_resumption :
    match ((new .default).performAll resumption).result with
    | .ok (_, d) => ∃ target given, d.target? sshKey = some target ∧
        target.root.animation.isSome ∧
        ((new .default).history resumption).lastChange? sshKey = some (.mounted given) ∧
        given.root.animation.isSome
    | .error _ => False := by
  obtain ⟨given, hlast, hgiven⟩ :=
    (@animated_when_idle_iff .default _ sshKey _ resumption _ rfl rfl rfl).1 rfl
  exact ⟨_, given, rfl, rfl, hlast, hgiven⟩

/-- Is every target that is mounted either fresh or one that the dashboard has handed back? -/
def MountsKnown (ops : List Operation) (answers : List Answer) : Prop :=
  ∀ (i : Nat) (key : String) (target : ChartTarget), ops[i]? = some (Operation.mount key target) →
    target = .fresh ∨ ∃ j, j < i ∧ answers[j]? = some (Answer.target (some target))

/-- Mounting only fresh targets and such that were handed back does not make animations end. -/
theorem not_still_when_idle :
    ¬∀ (config : Config) (ops : List Operation) (answers : List Answer) (d : Dashboard)
      (key : String) (target : ChartTarget),
      ((new config).performAll ops).result = .ok (answers, d) → MountsKnown ops answers →
        ops.getLast? = some .runUntilIdle → d.target? key = some target →
          target.root.animation = none := by
  intro hstill
  have hknown (answers : List Answer) (ha : answers[2]? = some (.target (some interrupted))) :
      MountsKnown resumption answers := by
    intro i key target hi
    rcases i with _ | _ | _ | _ | _ | i
    · obtain ⟨-, rfl⟩ := Operation.mount.inj (Option.some.inj hi)
      exact .inl rfl
    · cases hi
    · cases hi
    · obtain ⟨-, rfl⟩ := Operation.mount.inj (Option.some.inj hi)
      exact .inr ⟨2, by decide, ha⟩
    · cases hi
    · cases hi
  have hnone := hstill .default resumption _ _ sshKey _ rfl (hknown _ rfl) rfl rfl
  cases hnone

end Dashboard

end Sparkboard
