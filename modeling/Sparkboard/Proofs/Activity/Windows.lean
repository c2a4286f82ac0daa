import Mathlib.Logic.Basic
import Mathlib.Tactic.ByContra
import Sparkboard.Activity
/-!
# Windows of activity

A window lasts five minutes and starts a number of minutes ago, on the nanosecond (`Inside`).
Events carry whole seconds, and the edges of a window are cut to whole seconds before they are
compared.  At the start that makes no difference.  At the end it does, if the present moment is not
on a whole second: an event in the very second in which the window ends lies inside and is not
counted (`counted_iff`).  This is the only difference (`bucketCounts_inside`).
-/

namespace Sparkboard

namespace Instant

variable {t : Instant} {minutes : Int}

def nanosOf (second : Int) : Int := 1000000000 * second

/-- Nanoseconds from the beginning of 1970 to the moment. -/
def time (t : Instant) : Int := nanosOf t.seconds + t.nanos

/-- Is this a moment of the calendar outside leap seconds? -/
structure Ordinary (t : Instant) : Prop where
  nanos_lt : t.nanos < 1000000000
  earliest_le : earliest ≤ t.seconds
  le_latest : t.seconds ≤ latest

theorem secondBefore?_eq_some (hnanos : t.nanos < 1000000000)
    (hearly : earliest ≤ t.seconds - 60 * minutes) (hlate : t.seconds - 60 * minutes ≤ latest) :
    t.secondBefore? minutes = some (t.seconds - 60 * minutes) := by
  have hleap : ¬t.inLeapSecond := by
    unfold inLeapSecond
    rw [decide_eq_true_eq]
    omega
  have hbase : t.base minutes = t.seconds := if_neg fun h => hleap h.1
  unfold secondBefore?
  rw [hbase, if_pos ⟨hearly, hlate⟩]

end Instant

namespace Activity

variable {timestamps : List Int} {now : Instant} {mark event : Int}

/-- The second in which the window ends that starts `mark` minutes ago. -/
def lastSecond (now : Instant) (mark : Int) : Int := now.seconds - 60 * mark + 300

/-- Does the event lie strictly inside the five minutes from `mark` minutes ago on? -/
def Inside (now : Instant) (mark event : Int) : Prop :=
  now.time - Instant.nanosOf (60 * mark) < Instant.nanosOf event ∧
    Instant.nanosOf event < now.time - Instant.nanosOf (60 * mark) + Instant.nanosOf 300

instance : Decidable (Inside now mark event) := inferInstanceAs (Decidable (_ ∧ _))

/-- Does the calendar reach both ends of the window? -/
structure Reached (now : Instant) (mark : Int) : Prop where
  start : Instant.earliest ≤ now.seconds - 60 * mark
  stop : lastSecond now mark ≤ Instant.latest

/-! ## Edges -/

theorem edge_eq (hnow : now.Ordinary) (hearly : Instant.earliest ≤ now.seconds - 60 * mark)
    (hlate : now.seconds - 60 * mark ≤ Instant.latest) :
    edge now mark = .ok (now.seconds - 60 * mark) := by
  have hfirst := hnow.earliest_le
  have hlast := hnow.le_latest
  have hshort : ¬(60 * mark < -longestSeconds ∨ longestSeconds < 60 * mark) := by
    unfold longestSeconds
    unfold Instant.earliest Instant.latest at *
    omega
  unfold edge
  rw [if_neg hshort, Instant.secondBefore?_eq_some hnow.nanos_lt hearly hlate]

/-- Counted are the events strictly between the seconds of the two edges. -/
theorem bucketCount_eq (hnow : now.Ordinary) (hmark : Reached now mark) (timestamps : List Int) :
    bucketCount timestamps now mark =
      .ok (countBetween timestamps (now.seconds - 60 * mark) (lastSecond now mark)) := by
  have hstart := hmark.start
  have hstop := hmark.stop
  have hlast : now.seconds - 60 * (mark - windowMinutes) = lastSecond now mark := by
    unfold windowMinutes lastSecond
    omega
  have hlength : lastSecond now mark = now.seconds - 60 * mark + 300 := rfl
  unfold bucketCount
  rw [edge_eq hnow hstart (by omega), edge_eq hnow (by omega) (by omega), hlast]
  rfl

theorem bucketCounts_eq {marks : List Int} (hnow : now.Ordinary)
    (hmarks : ∀ mark ∈ marks, Reached now mark) (timestamps : List Int) :
    bucketCounts timestamps now marks = .ok (marks.map fun mark =>
      countBetween timestamps (now.seconds - 60 * mark) (lastSecond now mark)) := by
  unfold bucketCounts
  induction marks with
  | nil => rfl
  | cons mark marks ih =>
    obtain ⟨hmark, hmarks⟩ := List.forall_mem_cons.1 hmarks
    rw [List.mapM_cons, bucketCount_eq hnow hmark, ih hmarks]
    rfl

/-! ## What lies inside -/

/-- Those with a property, some with a second one and some without. -/
theorem countP_split {α : Type} (p q : α → Prop) [DecidablePred p] [DecidablePred q] (l : List α) :
    (l.countP fun a => p a) = (l.countP fun a => p a ∧ q a) + l.countP fun a => p a ∧ ¬q a := by
  rw [List.countP_eq_countP_filter_add l (fun a => decide (p a)) (fun a => decide (q a)),
    List.countP_filter, List.countP_filter]
  simp only [Bool.decide_and, decide_not]

/-- Between the seconds of the edges lies what lies inside, but for the second of the end. -/
theorem counted_iff (hnanos : now.nanos < 1000000000) :
    now.seconds - 60 * mark < event ∧ event < lastSecond now mark ↔
      Inside now mark event ∧ event ≠ lastSecond now mark := by
  unfold Inside Instant.time Instant.nanosOf lastSecond
  omega

/-- The second of the end lies inside if the moment is not on a whole second. -/
theorem inside_lastSecond_iff (hnanos : now.nanos < 1000000000) :
    Inside now mark (lastSecond now mark) ↔ now.nanos ≠ 0 := by
  unfold Inside Instant.time Instant.nanosOf lastSecond
  omega

theorem countBetween_eq (hnanos : now.nanos < 1000000000) (timestamps : List Int) :
    countBetween timestamps (now.seconds - 60 * mark) (lastSecond now mark) =
      timestamps.countP fun event => Inside now mark event ∧ event ≠ lastSecond now mark := by
  unfold countBetween
  refine List.countP_congr fun event _ => ?_
  rw [Bool.and_eq_true, decide_eq_true_eq, decide_eq_true_eq, decide_eq_true_eq]
  exact counted_iff hnanos

/-- What lies inside is counted, but for an event in the second of the end. -/
theorem countP_inside_iff (hnanos : now.nanos < 1000000000) (timestamps : List Int) :
    (timestamps.countP fun event => Inside now mark event ∧ event ≠ lastSecond now mark) =
        (timestamps.countP fun event => Inside now mark event) ↔
      now.nanos = 0 ∨ lastSecond now mark ∉ timestamps := by
  have hsplit := countP_split (Inside now mark) (· = lastSecond now mark) timestamps
  have hnone :
      (timestamps.countP fun event => Inside now mark event ∧ event = lastSecond now mark) = 0 ↔
      now.nanos = 0 ∨ lastSecond now mark ∉ timestamps := by
    simp only [List.countP_eq_zero, decide_eq_true_eq]
    constructor
    · intro h
      by_contra hne
      obtain ⟨hsub, hmem⟩ := not_or.1 hne
      exact h _ (not_not.1 hmem) ⟨(inside_lastSecond_iff hnanos).2 hsub, rfl⟩
    · rintro h event hevent ⟨hinside, rfl⟩
      exact h.elim ((inside_lastSecond_iff hnanos).1 hinside) fun hmem => hmem hevent
  simp only [ne_eq, ← hnone]
  omega

/-! ## Counts -/

/-- Counted are the events strictly inside each window, to the nanosecond, but for those in the very
second in which it ends.  So the count is that of the events inside exactly if the moment is on a
whole second, or no window ends in the second of an event. -/
theorem bucketCounts_inside {marks : List Int} (hnow : now.Ordinary)
    (hmarks : ∀ mark ∈ marks, Reached now mark) (timestamps : List Int) :
    bucketCounts timestamps now marks = .ok (marks.map fun mark =>
      timestamps.countP fun event => Inside now mark event ∧ event ≠ lastSecond now mark) ∧
    (bucketCounts timestamps now marks = .ok (marks.map fun mark =>
        timestamps.countP fun event => Inside now mark event) ↔
      now.nanos = 0 ∨ ∀ mark ∈ marks, lastSecond now mark ∉ timestamps) := by
  have hcounts : bucketCounts timestamps now marks = .ok (marks.map fun mark =>
      timestamps.countP fun event => Inside now mark event ∧ event ≠ lastSecond now mark) := by
    rw [bucketCounts_eq hnow hmarks]
    simp only [countBetween_eq hnow.nanos_lt]
  refine ⟨hcounts, ?_⟩
  rw [hcounts, Except.ok.injEq, List.map_inj_left]
  simp only [countP_inside_iff hnow.nanos_lt]
  rcases eq_or_ne now.nanos 0 with hwhole | hsub
  · simp only [hwhole, true_or, implies_true]
  · simp only [hsub, false_or]

/-- Half a second past noon: the last window ends in the second of an event. -/
theorem bucketCounts_inside_halfPastNoon :
    bucketCounts [43200, 42900, 41401] ⟨43200, 500000000⟩ [30, 5] = .ok [1, 0] ∧
      bucketCounts [43200, 42900, 41401] ⟨43200, 500000000⟩ [30, 5] ≠ .ok [1, 1] := by
  have hmarks : ∀ mark ∈ [(30 : Int), 5], Reached ⟨43200, 500000000⟩ mark := by
    intro mark hmark
    simp only [List.mem_cons, List.not_mem_nil, or_false] at hmark
    rcases hmark with rfl | rfl
    · exact ⟨by decide, by decide⟩
    · exact ⟨by decide, by decide⟩
  obtain ⟨hcounts, hinside⟩ := bucketCounts_inside ⟨by decide, by decide, by decide⟩ hmarks
    [43200, 42900, 41401]
  refine ⟨hcounts, fun hall => ?_⟩
  have hnone := hinside.1 hall
  exact absurd hnone (by decide)

/-- An event in the second in which a window ends, half a second before the end, is not counted. -/
theorem not_bucketCounts_inside :
    ¬∀ (timestamps marks : List Int) (now : Instant), now.Ordinary →
      (∀ mark ∈ marks, Reached now mark) →
        bucketCounts timestamps now marks = .ok (marks.map fun mark =>
          timestamps.countP fun event => Inside now mark event) := by
  intro hinside
  have hmark : Reached ⟨1500, 500000000⟩ 30 := ⟨by decide, by decide⟩
  have hcount := hinside [0] [30] ⟨1500, 500000000⟩ ⟨by decide, by decide, by decide⟩
    (List.forall_mem_singleton.2 hmark)
  have hnone : bucketCounts [0] ⟨1500, 500000000⟩ [30] = .ok [0] := rfl
  rw [hnone, Except.ok.injEq] at hcount
  exact absurd hcount (by decide)

end Activity

end Sparkboard
