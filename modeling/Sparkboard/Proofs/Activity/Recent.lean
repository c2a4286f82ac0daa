import Sparkboard.Proofs.Activity.Windows
import Sparkboard.Proofs.Chart.Checks
import Sparkboard.Proofs.Decimal.Arithmetic
/-!
# The chart of recent activity

The four windows follow one another without a gap.  As the events at their edges do not count, every
event between half an hour and ten minutes ago counts in exactly one of them, unless it is a whole
number of five minutes ago (`inWindow_unique`, `exists_inWindow_iff`).  A chart is made of the four
counts whatever the events are, and it shows them exactly (`exists_recent`): a count below `2 ^ 53`
is a float.
-/

namespace Sparkboard

namespace Activity

open Binary64 (StandsFor)

variable {timestamps : List Int} {now : Instant} {second mark event : Int}

/-- Does the event fall into the window, strictly between the seconds of its edges? -/
def InWindow (second mark event : Int) : Prop :=
  second - 60 * mark < event ∧ event < second - 60 * mark + 300

instance : Decidable (InWindow second mark event) := inferInstanceAs (Decidable (_ ∧ _))

/-- How many events fall into each of the four windows. -/
def tally (timestamps : List Int) (second : Int) : Slots Nat :=
  marks.map fun mark => timestamps.countP fun event => InWindow second mark event

/-- Can the activity at this moment be counted?  The calendar has to reach half an hour back. -/
structure Countable (now : Instant) : Prop where
  nanos_lt : now.nanos < 1000000000
  earliest_le : Instant.earliest ≤ now.seconds - 1800
  le_latest : now.seconds ≤ Instant.latest

/-! ## The windows -/

theorem inWindow_unique {mark' : Int} (hm : mark ∈ marks.toList) (hm' : mark' ∈ marks.toList)
    (h : InWindow second mark event) (h' : InWindow second mark' event) : mark = mark' := by
  simp only [marks, Slots.toList, List.mem_cons, List.not_mem_nil, or_false] at hm hm'
  unfold InWindow at h h'
  omega

theorem exists_inWindow_iff :
    (∃ mark ∈ marks.toList, InWindow second mark event) ↔
      second - 1800 < event ∧ event < second - 600 ∧ ¬300 ∣ second - event := by
  simp only [marks, Slots.toList, List.exists_mem_cons_iff, List.not_mem_nil, false_and,
    exists_false, or_false]
  unfold InWindow
  omega

/-- Where no two kinds overlap, the numbers of each kind add up. -/
theorem sum_countP {α β : Type} {p : α → β → Prop} [∀ a, DecidablePred (p a)] {kinds : List α}
    (hkinds : kinds.Pairwise fun a a' => ∀ b, p a b → ¬p a' b) (events : List β) :
    (kinds.map fun a => events.countP fun b => p a b).sum =
      events.countP fun b => ∃ a ∈ kinds, p a b := by
  induction kinds with
  | nil => simp
  | cons a kinds ih =>
    obtain ⟨hfirst, hkinds⟩ := List.pairwise_cons.1 hkinds
    rw [List.map_cons, List.sum_cons, ih hkinds,
      countP_split (fun b => ∃ a' ∈ a :: kinds, p a' b) (p a) events]
    congr 1
    · refine List.countP_congr fun b _ => ?_
      simp only [List.exists_mem_cons_iff, decide_eq_true_eq]
      exact ⟨fun h => ⟨.inl h, h⟩, And.right⟩
    · refine List.countP_congr fun b _ => ?_
      simp only [List.exists_mem_cons_iff, decide_eq_true_eq]
      constructor
      · rintro ⟨a', ha', hb⟩
        exact ⟨.inr ⟨a', ha', hb⟩, fun h => hfirst a' ha' b h hb⟩
      · rintro ⟨h | h, hne⟩
        · exact absurd h hne
        · exact h

theorem sum_tally (timestamps : List Int) (second : Int) :
    (tally timestamps second).toList.sum = timestamps.countP fun event =>
      second - 1800 < event ∧ event < second - 600 ∧ ¬300 ∣ second - event := by
  have hseparate : marks.toList.Pairwise fun mark mark' =>
      ∀ event, InWindow second mark event → ¬InWindow second mark' event := by
    have hdistinct : marks.toList.Nodup := by decide
    refine hdistinct.imp_of_mem fun hmark hmark' hne event h h' => ?_
    exact hne (inWindow_unique hmark hmark' h h')
  rw [tally, Slots.toList_map, sum_countP hseparate]
  simp only [exists_inWindow_iff]

/-! ## The chart -/

theorem Countable.ordinary (h : Countable now) : now.Ordinary where
  nanos_lt := h.nanos_lt
  earliest_le := by have := h.earliest_le; omega
  le_latest := h.le_latest

theorem Countable.reached (h : Countable now) (hmark : mark ∈ marks.toList) : Reached now mark := by
  have hearly := h.earliest_le
  have hlate := h.le_latest
  simp only [marks, Slots.toList, List.mem_cons, List.not_mem_nil, or_false] at hmark
  refine ⟨?_, ?_⟩
  · omega
  · unfold lastSecond
    omega

theorem bucketCounts_marks (h : Countable now) (timestamps : List Int) :
    bucketCounts timestamps now marks.toList = .ok (tally timestamps now.seconds).toList := by
  have hcount : ∀ mark, countBetween timestamps (now.seconds - 60 * mark) (lastSecond now mark) =
      timestamps.countP fun event => InWindow now.seconds mark event := fun mark => by
    unfold countBetween
    refine List.countP_congr fun event _ => ?_
    rw [Bool.and_eq_true, decide_eq_true_eq, decide_eq_true_eq, decide_eq_true_eq]
    rfl
  rw [bucketCounts_eq h.ordinary fun _ => h.reached]
  simp only [hcount]
  rfl

theorem mem_tally_le {n : Nat} (hn : n ∈ (tally timestamps second).toList) :
    n ≤ timestamps.length := by
  rw [tally, Slots.toList_map] at hn
  obtain ⟨mark, -, rfl⟩ := List.mem_map.1 hn
  exact List.countP_le_length

/-- A number of events can be placed on a chart. -/
theorem isPlottable_ofNat {n : Nat} (hn : n < 2 ^ 53) :
    (Float.ofNat n).isFinite = true ∧ ¬Float.ofNat n < 0.0 := by
  have hstands := Binary64.standsFor_ofNat hn
  refine ⟨hstands.isFinite, fun hlt => ?_⟩
  have hneg := (hstands.lt_iff Binary64.standsFor_zero).1 hlt
  exact hneg.not_ge (Nat.cast_nonneg n)

/-- Does the chart show these numbers?  Each of them is a float. -/
structure Recent.Shows (r : Recent) (counts : Slots Nat) : Prop where
  labels : r.labels = ⟨"30m", "25m", "20m", "15m"⟩
  values : r.series.values = counts.map Float.ofNat
  exact : ∀ n ∈ counts.toList, StandsFor (Float.ofNat n) n

theorem exists_recent (h : Countable now) (hlength : timestamps.length < 2 ^ 53) :
    ∃ r, recent timestamps now = .ok (.ok r) ∧ r.Shows (tally timestamps now.seconds) := by
  have hsmall : ∀ n ∈ (tally timestamps now.seconds).toList, n < 2 ^ 53 :=
    fun n hn => (mem_tally_le hn).trans_lt hlength
  have hfour : ((tally timestamps now.seconds).toList.map Float.ofNat).length = 4 := rfl
  have hplaced : ∀ v ∈ (tally timestamps now.seconds).toList.map Float.ofNat,
      v.isFinite = true ∧ ¬v < 0.0 := by
    intro v hv
    obtain ⟨n, hn, rfl⟩ := List.mem_map.1 hv
    exact isPlottable_ofNat (hsmall n hn)
  obtain ⟨series, hseries⟩ := exists_ofList_series_iff.2 ⟨hfour, hplaced⟩
  refine ⟨⟨⟨"30m", "25m", "20m", "15m"⟩, series⟩, ?_, rfl, ?_, ?_⟩
  · have hlabels : LabelSet.ofList (marks.map markLabel).toList =
        .ok ⟨"30m", "25m", "20m", "15m"⟩ := rfl
    unfold recent
    rw [bucketCounts_marks h, hlabels]
    show Except.ok (do
      let series ← Series.ofList ((tally timestamps now.seconds).toList.map Float.ofNat)
      return (⟨⟨"30m", "25m", "20m", "15m"⟩, series⟩ : Recent)) = _
    rw [hseries]
    rfl
  · exact Slots.toList_inj.1 (toList_of_series hseries)
  · exact fun n hn => Binary64.standsFor_ofNat (hsmall n hn)

theorem recent_perm {others : List Int} (h : others.Perm timestamps) (now : Instant) :
    recent others now = recent timestamps now := by
  have hcount : bucketCount others now = bucketCount timestamps now := by
    funext mark
    unfold bucketCount countBetween
    simp only [h.countP_eq]
  unfold recent bucketCounts
  rw [hcount]

/-- The windows count the events of two lists together. -/
theorem tally_append (first rest : List Int) (second : Int) :
    tally (first ++ rest) second = (tally first second).zipWith (· + ·) (tally rest second) := by
  simp only [tally, Slots.map, Slots.zipWith, List.countP_append]

/-- Charts of lists that are joined show sums. -/
theorem Recent.Shows.append {r r₁ r₂ : Recent} {first rest : List Int}
    (hlength : (first ++ rest).length < 2 ^ 53) (h : r.Shows (tally (first ++ rest) second))
    (h₁ : r₁.Shows (tally first second)) (h₂ : r₂.Shows (tally rest second)) :
    r.series.values = r₁.series.values.zipWith (· + ·) r₂.series.values := by
  have hsum (mark : Int) :
      (Float.ofNat (first.countP fun event => InWindow second mark event) +
        Float.ofNat (rest.countP fun event => InWindow second mark event)) =
      Float.ofNat ((first.countP fun event => InWindow second mark event) +
        rest.countP fun event => InWindow second mark event) := by
    have hle := first.countP_le_length (p := fun event => InWindow second mark event)
    have hle' := rest.countP_le_length (p := fun event => InWindow second mark event)
    rw [List.length_append] at hlength
    exact Binary64.ofNat_add (by omega)
  rw [h.values, h₁.values, h₂.values, tally_append]
  simp only [tally, Slots.map, Slots.zipWith, hsum]

/-- At any moment, half an hour or more into the calendar, there is a chart of recent activity.
Each slot shows the number of events strictly between the edges of its window, and no event falls
into two windows.  Together they count the events between half an hour and ten minutes ago, but for
those that are a whole number of five minutes ago.  The order of the events does not matter, and the
chart of two lists shows the sums of what their charts show. -/
theorem recent_partitions_events (h : Countable now) (hlength : timestamps.length < 2 ^ 53) :
    (∃ r, recent timestamps now = .ok (.ok r) ∧ r.Shows (tally timestamps now.seconds)) ∧
    (∀ mark ∈ marks.toList, ∀ mark' ∈ marks.toList, ∀ event,
      InWindow now.seconds mark event → InWindow now.seconds mark' event → mark = mark') ∧
    ((tally timestamps now.seconds).toList.sum = timestamps.countP fun event =>
      now.seconds - 1800 < event ∧ event < now.seconds - 600 ∧ ¬300 ∣ now.seconds - event) ∧
    (∀ others, others.Perm timestamps → recent others now = recent timestamps now) ∧
    ∀ first rest, first ++ rest = timestamps → ∃ r r₁ r₂,
      recent timestamps now = .ok (.ok r) ∧ recent first now = .ok (.ok r₁) ∧
        recent rest now = .ok (.ok r₂) ∧
          r.series.values = r₁.series.values.zipWith (· + ·) r₂.series.values := by
  refine ⟨exists_recent h hlength, fun mark hm mark' hm' event => inWindow_unique hm hm',
    sum_tally timestamps now.seconds, fun others hperm => recent_perm hperm now, ?_⟩
  rintro first rest rfl
  have hparts := hlength
  rw [List.length_append] at hparts
  obtain ⟨r, hr, hshows⟩ := exists_recent h hlength
  obtain ⟨r₁, hr₁, hshows₁⟩ := exists_recent h (show first.length < 2 ^ 53 by omega)
  obtain ⟨r₂, hr₂, hshows₂⟩ := exists_recent h (show rest.length < 2 ^ 53 by omega)
  exact ⟨r, r₁, r₂, hr, hr₁, hr₂, hshows.append hlength hshows₁ hshows₂⟩

/-- Half a second before 1970, with an event inside each window but the second, and events at the
edges of all of them. -/
theorem recent_partitions_beforeEpoch :
    ∃ r, recent [-1800, -1801, -1501, -1200, -1201, -900, -901, -601] ⟨-1, 500000000⟩ =
        .ok (.ok r) ∧
      r.Shows ⟨1, 0, 1, 1⟩ := by
  have hnow : Countable ⟨-1, 500000000⟩ := ⟨by decide, by decide, by decide⟩
  have hfew : [(-1800 : Int), -1801, -1501, -1200, -1201, -900, -901, -601].length < 2 ^ 53 := by
    decide
  have hcounts : tally [-1800, -1801, -1501, -1200, -1201, -900, -901, -601] (-1) =
      ⟨1, 0, 1, 1⟩ := by
    decide
  obtain ⟨⟨r, hr, hshows⟩, -⟩ := recent_partitions_events hnow hfew
  exact ⟨r, hr, hcounts ▸ hshows⟩

end Activity

end Sparkboard
