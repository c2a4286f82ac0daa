import Sparkboard.Proofs.Dashboard.Drain
/-!
# Slices of time

How the host slices time is not seen: to let `a` pass and then `b` is to let `a + b` pass at once
(`advance_add_iff`), in the state afterwards, in the tasks that were run, and in whether the clock
overflows.

A drain up to a moment is cut where the clock passes an earlier moment.  At the cut the sliced run
moves the clock on and the other does not; the next task to be run, or the end, sets both clocks to
the same time.
-/

namespace Sparkboard

namespace Dashboard

variable {d d₁ d' : Dashboard} {early late : Duration} {entries first rest : List (Entry Task)}

/-- A drain up to a moment starts with the drain up to any earlier one. -/
theorem Drains.cut (h : Drains (·.popDue? late) d entries d') (hle : early ≤ late) :
    ∃ first d₁ rest, Drains (·.popDue? early) d first d₁ ∧ Drains (·.popDue? late) d₁ rest d' ∧
      entries = first ++ rest := by
  induction h with
  | @done d hn => exact ⟨[], d, [], .done (Timeline.popDue?_eq_none_mono hle hn), .done hn, rfl⟩
  | @run d d₁ d' entry timeline entries hp hr hrest ih =>
    obtain ⟨hpop, -⟩ := Timeline.popDue?_eq_some_iff.1 hp
    by_cases hdue : entry.due ≤ early
    · obtain ⟨first, d₂, rest, hfirst, hrest', rfl⟩ := ih
      have hearly := Timeline.popDue?_eq_some_iff.2 ⟨hpop, hdue⟩
      exact ⟨entry :: first, d₂, rest, .run hearly hr hfirst, hrest', rfl⟩
    · have hnone := Timeline.popDue?_eq_none_of_pop? hpop hdue
      exact ⟨[], d, entry :: entries, .done hnone, .run hp hr hrest, rfl⟩

/-- A drain that goes on where one up to an earlier moment ended. -/
theorem Drains.glue (h : Drains (·.popDue? early) d first d₁)
    (h' : Drains (·.popDue? late) d₁ rest d') (hle : early ≤ late) :
    Drains (·.popDue? late) d (first ++ rest) d' := by
  induction h with
  | done => exact h'
  | run hp hr _ ih => exact .run (Timeline.popDue?_mono hle hp) hr (ih h')

/-! ## The clock between two slices -/

theorem waited_waited (hle : early ≤ late) : (d.waited early).waited late = d.waited late := by
  have hnow : (d.timeline.now.latest early).latest late = d.timeline.now.latest late := by
    apply Duration.ext
    rw [Duration.nanos_latest, Duration.nanos_latest, Duration.nanos_latest]
    rw [Duration.le_def] at hle
    omega
  unfold waited Timeline.advanceTo
  dsimp only
  rw [hnow]

/-- Of a task that is due later it is not seen whether the clock had moved on before. -/
theorem popDue?_waited (hn : d.timeline.popDue? early = none) :
    (d.waited early).timeline.popDue? late = d.timeline.popDue? late := by
  rw [Timeline.popDue?_eq_none_iff] at hn
  have hpop : (d.waited early).timeline.pop? = d.timeline.pop? := by
    unfold Timeline.pop?
    refine Option.map_congr fun x hx => ?_
    have hlt := hn x hx
    rw [Prod.mk.injEq, Timeline.mk.injEq]
    refine ⟨rfl, Duration.ext ?_, rfl, rfl⟩
    show ((d.timeline.now.latest early).latest x.due).nanos = _
    rw [Duration.nanos_latest, Duration.nanos_latest, Duration.nanos_latest]
    rw [Duration.lt_def] at hlt
    omega
  unfold Timeline.popDue?
  rw [hpop]
  rfl

/-- If the clock moves on first, up to the tasks that are about to be run, a drain runs the same
tasks and ends in the same state, once both clocks show the end of the slice. -/
theorem drains_waited_iff (hn : d.timeline.popDue? early = none) (hle : early ≤ late) :
    (∃ d₁, Drains (·.popDue? late) (d.waited early) entries d₁ ∧ d' = d₁.waited late) ↔
      ∃ d₁, Drains (·.popDue? late) d entries d₁ ∧ d' = d₁.waited late := by
  have hpop : (d.waited early).timeline.popDue? late = d.timeline.popDue? late :=
    popDue?_waited hn
  constructor
  · intro hex
    obtain ⟨d₁, h, rfl⟩ := hex
    cases h with
    | done hl =>
      rw [hpop] at hl
      exact ⟨d, .done hl, waited_waited hle⟩
    | run hp hr hrest =>
      rw [hpop] at hp
      exact ⟨d₁, .run hp hr hrest, rfl⟩
  · intro hex
    obtain ⟨d₁, h, rfl⟩ := hex
    cases h with
    | done hl =>
      rw [← hpop] at hl
      exact ⟨d.waited early, .done hl, (waited_waited hle).symm⟩
    | run hp hr hrest =>
      rw [← hpop] at hp
      exact ⟨d₁, .run hp hr hrest, rfl⟩

/-! ## Two advances -/

/-- To let time pass in two slices is to let it pass at once. -/
theorem advance_add_iff {a b c : Duration} (hc : a.add? b = some c) :
    (d.advance c).result = .ok (entries, d') ↔
      ∃ first d₁ rest, (d.advance a).result = .ok (first, d₁) ∧
        (d₁.advance b).result = .ok (rest, d') ∧ entries = first ++ rest := by
  rw [Duration.add?_eq_some_iff] at hc
  have hsum (early late : Duration) (hearly : d.now.add? a = some early) :
      d.now.add? c = some late ↔ early.add? b = some late := by
    rw [Duration.add?_eq_some_iff] at hearly
    rw [Duration.add?_eq_some_iff, Duration.add?_eq_some_iff]
    omega
  simp only [result_advance_eq_ok]
  constructor
  · intro hex
    obtain ⟨late, d₃, hl, hd, rfl⟩ := hex
    -- the end of the first slice
    obtain ⟨early, he⟩ : ∃ early, d.now.add? a = some early := by
      have hlt := late.nanos_lt
      rw [Duration.add?_eq_some_iff] at hl
      exact ⟨⟨d.now.nanos + a.nanos, by omega⟩, Duration.add?_eq_some_iff.2 rfl⟩
    have hb := (hsum early late he).1 hl
    have hle : early ≤ late := Duration.le_of_add? hb
    obtain ⟨first, d₁, rest, hfirst, hrest, rfl⟩ := hd.cut hle
    obtain ⟨d₂, hrest', hend⟩ := (drains_waited_iff hfirst.exhausted hle).2 ⟨d₃, hrest, rfl⟩
    have hnow := now_waited (hfirst.now_le (Duration.le_of_add? he))
    rw [← hnow] at hb
    exact ⟨first, d₁.waited early, rest, ⟨early, d₁, he, hfirst, rfl⟩,
      ⟨late, d₂, hb, hrest', hend⟩, rfl⟩
  · intro hex
    obtain ⟨first, _, rest, ⟨early, d₁, he, hfirst, rfl⟩, ⟨late, d₂, hb, hrest, rfl⟩, rfl⟩ := hex
    rw [now_waited (hfirst.now_le (Duration.le_of_add? he))] at hb
    have hle : early ≤ late := Duration.le_of_add? hb
    obtain ⟨d₃, hrest', hend⟩ := (drains_waited_iff hfirst.exhausted hle).1 ⟨d₂, hrest, rfl⟩
    exact ⟨late, d₃, (hsum early late he).2 hb, hfirst.glue hrest' hle, hend⟩

def barStarted : Dashboard :=
  { new .default with
    started := 1
    sessions := Table.empty.insert 0 .started }.push (.ofMillis 800) (.loadingTick 0)

/-- The first second of a loading bar in two slices: three steps in all. -/
theorem advance_bar_in_slices :
    ∃ first d₁ rest d', (barStarted.advance (.ofMillis 400)).result = .ok (first, d₁) ∧
      (d₁.advance (.ofMillis 600)).result = .ok (rest, d') ∧ (first ++ rest).length = 3 := by
  have hsum : (Duration.ofMillis 400).add? (.ofMillis 600) = some (.ofMillis 1000) := by decide
  obtain ⟨entries, d', hrun, hlength⟩ : ∃ entries d',
      (barStarted.advance (.ofMillis 1000)).result = .ok (entries, d') ∧ entries.length = 3 :=
    ⟨_, _, rfl, rfl⟩
  obtain ⟨first, d₁, rest, hfirst, hrest, rfl⟩ := (advance_add_iff hsum).1 hrun
  exact ⟨first, d₁, rest, d', hfirst, hrest, hlength⟩

end Dashboard

end Sparkboard
