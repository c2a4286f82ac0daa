import Sparkboard.Proofs.Timeline.Queue
/-!
# Timelines are stable priority queues

A timeline may be used in any order: tasks are scheduled, the next one is taken out if it is due by
some moment, and the clock is moved on, also past tasks that wait.  `Uses` lists what one use can
do.

The history equation is that what was taken out and what waits are together what was scheduled
(`useAll_perm`): a new entry never has the key of one that waits, so it replaces none.  Every entry
has a number of its own (`map_order_entered`), so no task is lost and none comes out twice.  The
entries that wait stand in the order in which they come out (`Ordered`), wherever the clock is.
From these two follows what a queue promises (`takes_each_entry_once_in_order`).
-/

namespace Sparkboard

/-- Something that is done with a timeline. -/
inductive TimelineUse (τ : Type) where
  | after (delay : Duration) (task : τ)
  | popDue (limit : Duration)
  | advanceTo (moment : Duration)

/-- The task that is scheduled, if one is. -/
def TimelineUse.task? {τ : Type} : TimelineUse τ → Option τ
  | .after _ task => some task
  | .popDue _ | .advanceTo _ => none

namespace Timeline

variable {τ : Type} {t t₁ t' : Timeline τ} {e : Entry τ} {task : τ}
  {delay due limit moment : Duration} {u : TimelineUse τ} {us : List (TimelineUse τ)}
  {taken : List (Entry τ)} {answer : Option (Entry τ)}

/-- Uses a timeline once.  The answer is the entry that was taken out. -/
def use (t : Timeline τ) : TimelineUse τ → Except ClockOverflow (Option (Entry τ) × Timeline τ)
  | .after delay task => (t.after delay task).map fun t' => (none, t')
  | .popDue limit =>
    match t.popDue? limit with
    | some (e, t') => .ok (some e, t')
    | none => .ok (none, t)
  | .advanceTo moment => .ok (none, t.advanceTo moment)

/-- Uses a timeline in turn.  The answer lists the entries that were taken out. -/
def useAll (t : Timeline τ) :
    List (TimelineUse τ) → Except ClockOverflow (List (Entry τ) × Timeline τ)
  | [] => .ok ([], t)
  | u :: us =>
    match t.use u with
    | .error e => .error e
    | .ok (answer, t') => (t'.useAll us).map fun (taken, t'') => (answer.toList ++ taken, t'')

/-- The entry that a use schedules: it is due when the delay is over, and its number is that of the
tasks scheduled before. -/
def entered? (t : Timeline τ) : TimelineUse τ → Option (Entry τ)
  | .after delay task => (t.now.add? delay).map fun due => ⟨due, t.scheduled, task⟩
  | .popDue _ | .advanceTo _ => none

/-- The entries that are scheduled in turn. -/
def entered (t : Timeline τ) : List (TimelineUse τ) → List (Entry τ)
  | [] => []
  | u :: us =>
    match t.use u with
    | .error _ => []
    | .ok (_, t') => (t.entered? u).toList ++ t'.entered us

/-! ## One use -/

/-- All that one use can do. -/
inductive Uses (t : Timeline τ) : TimelineUse τ → Option (Entry τ) → Timeline τ → Prop where
  | after {delay due : Duration} {task : τ} (hd : t.now.add? delay = some due) :
    Uses t (.after delay task) none (t.push due task)
  | pop {limit : Duration} {e : Entry τ} {t' : Timeline τ} (hp : t.pop? = some (e, t'))
    (hd : e.due ≤ limit) : Uses t (.popDue limit) (some e) t'
  | rest {limit : Duration} (hn : t.popDue? limit = none) : Uses t (.popDue limit) none t
  | advance {moment : Duration} : Uses t (.advanceTo moment) none (t.advanceTo moment)

theorem use_popDue_eq_some (hp : t.popDue? limit = some (e, t')) :
    t.use (.popDue limit) = .ok (some e, t') := by
  rw [use, hp]

theorem use_popDue_eq_none (hn : t.popDue? limit = none) :
    t.use (.popDue limit) = .ok (none, t) := by
  rw [use, hn]

theorem uses_of_use (h : t.use u = .ok (answer, t')) : t.Uses u answer t' := by
  cases u with
  | after delay task =>
    cases ha : t.after delay task with
    | error e =>
      rw [use, ha] at h
      cases h
    | ok t₁ =>
      obtain ⟨due, hd, rfl⟩ := after_eq_ok_iff.1 ha
      rw [use, ha] at h
      cases h
      exact .after hd
  | popDue limit =>
    cases hp : t.popDue? limit with
    | none =>
      rw [use_popDue_eq_none hp] at h
      cases h
      exact .rest hp
    | some out =>
      rw [use_popDue_eq_some hp] at h
      cases h
      obtain ⟨hpop, hdue⟩ := popDue?_eq_some_iff.1 hp
      exact .pop hpop hdue
  | advanceTo moment =>
    cases h
    exact .advance

theorem useAll_cons :
    t.useAll (u :: us) = .ok (taken, t') ↔
      ∃ answer t₁ rest, t.use u = .ok (answer, t₁) ∧ t₁.useAll us = .ok (rest, t') ∧
        taken = answer.toList ++ rest := by
  rw [useAll]
  cases t.use u with
  | error e => simp
  | ok out =>
    obtain ⟨answer, t₁⟩ := out
    dsimp only
    cases hus : t₁.useAll us with
    | error e => simp [Except.map, hus]
    | ok out =>
      constructor
      · intro h
        cases h
        exact ⟨answer, t₁, out.1, rfl, hus, rfl⟩
      · rintro ⟨_, _, rest, he, hrest, rfl⟩
        cases he
        rw [hus] at hrest
        cases hrest
        rfl

/-- The clock never goes back. -/
theorem Uses.now_le (h : t.Uses u answer t') : t.now ≤ t'.now := by
  cases h with
  | after | rest => exact Nat.le_refl _
  | pop hp => exact (Moves.pop hp .same).now_le
  | advance =>
    show t.now ≤ t.now.latest _
    rw [Duration.le_def, Duration.nanos_latest]
    exact Nat.le_max_left ..

/-! ## What was scheduled -/

/-- One use: what was taken out and what waits, and what waited and what was scheduled. -/
theorem Uses.perm (h : t.Uses u answer t') :
    (answer.toList ++ t'.pending).Perm (t.pending ++ (t.entered? u).toList) := by
  cases h with
  | after hd =>
    rw [entered?, hd]
    exact (pending_push t _ _).trans (List.perm_append_singleton _ _).symm
  | pop hp =>
    rw [(pop?_eq_some_iff.1 hp).1]
    exact .of_eq (List.append_nil _).symm
  | rest | advance => exact .of_eq (List.append_nil _).symm

/-- What was taken out and what waits are what waited at first and what was scheduled. -/
theorem useAll_perm (h : t.useAll us = .ok (taken, t')) :
    (taken ++ t'.pending).Perm (t.pending ++ t.entered us) := by
  induction us generalizing t taken with
  | nil =>
    cases h
    exact .of_eq (List.append_nil _).symm
  | cons u us ih =>
    obtain ⟨answer, t₁, rest, hu, hus, rfl⟩ := useAll_cons.1 h
    rw [entered, hu]
    dsimp only
    calc answer.toList ++ rest ++ t'.pending
        = answer.toList ++ (rest ++ t'.pending) := List.append_assoc ..
      _ |>.Perm (answer.toList ++ (t₁.pending ++ t₁.entered us)) := (ih hus).append_left _
      _ = answer.toList ++ t₁.pending ++ t₁.entered us := (List.append_assoc ..).symm
      _ |>.Perm (t.pending ++ (t.entered? u).toList ++ t₁.entered us) :=
        (uses_of_use hu).perm.append_right _
      _ = t.pending ++ ((t.entered? u).toList ++ t₁.entered us) := List.append_assoc ..

/-- Every use that schedules a task adds one to the number of the next. -/
theorem Uses.scheduled (h : t.Uses u answer t') :
    (t.entered? u).toList.map Entry.order = List.range' t.scheduled (t.entered? u).toList.length ∧
      t'.scheduled = t.scheduled + (t.entered? u).toList.length := by
  cases h with
  | after hd =>
    rw [entered?, hd]
    exact ⟨rfl, rfl⟩
  | pop hp =>
    rw [scheduled_pop hp]
    exact ⟨rfl, rfl⟩
  | rest | advance => exact ⟨rfl, rfl⟩

theorem map_order_entered (t : Timeline τ) (us : List (TimelineUse τ)) :
    (t.entered us).map Entry.order = List.range' t.scheduled (t.entered us).length := by
  induction us generalizing t with
  | nil => rfl
  | cons u us ih =>
    rw [entered]
    cases hu : t.use u with
    | error => rfl
    | ok out =>
      obtain ⟨answer, t₁⟩ := out
      obtain ⟨horder, hscheduled⟩ := (uses_of_use hu).scheduled
      dsimp only
      rw [List.map_append, horder, ih, hscheduled, List.length_append]
      exact List.range'_append_1

theorem map_task_entered (h : t.useAll us = .ok (taken, t')) :
    (t.entered us).map Entry.task = us.filterMap TimelineUse.task? := by
  induction us generalizing t taken with
  | nil => rfl
  | cons u us ih =>
    obtain ⟨answer, t₁, rest, hu, hus, -⟩ := useAll_cons.1 h
    rw [entered, hu]
    dsimp only
    rw [List.map_append, ih hus]
    cases uses_of_use hu with
    | after hd =>
      rw [entered?, hd]
      rfl
    | pop | rest | advance => rfl

/-! ## The order in which entries come out -/

/-- The entries that wait stand in the order in which they come out, whether their time is over or
not. -/
def Ordered (t : Timeline τ) : Prop :=
  t.pending.Pairwise Entry.Before

theorem ordered_start : (start : Timeline τ).Ordered := .nil

theorem Ordered.use (ho : t.Ordered) (h : t.Uses u answer t') : t'.Ordered := by
  cases h with
  | after hd => exact pairwise_enqueue ho
  | pop hp =>
    unfold Ordered at ho
    rw [(pop?_eq_some_iff.1 hp).1] at ho
    exact (List.pairwise_cons.1 ho).2
  | rest => exact ho
  | advance => exact ho

theorem Ordered.useAll (ho : t.Ordered) (h : t.useAll us = .ok (taken, t')) : t'.Ordered := by
  induction us generalizing t taken with
  | nil =>
    cases h
    exact ho
  | cons u us ih =>
    obtain ⟨answer, t₁, rest, hu, hus, -⟩ := useAll_cons.1 h
    exact ih (ho.use (uses_of_use hu)) hus

/-- Is `e` the entry that comes out first, and is what is left of the timeline `t'`? -/
structure ComesFirst (t : Timeline τ) (e : Entry τ) (t' : Timeline τ) : Prop where
  pending : t.pending.Perm (e :: t'.pending)
  before : ∀ f ∈ t'.pending, e.Before f
  now : t'.now = t.now.latest e.due
  scheduled : t'.scheduled = t.scheduled

theorem Ordered.comesFirst (ho : t.Ordered) (hp : t.pop? = some (e, t')) : t.ComesFirst e t' := by
  obtain ⟨hpending, hclock, hscheduled⟩ := pop?_eq_some_iff.1 hp
  unfold Ordered at ho
  rw [hpending] at ho
  exact ⟨.of_eq hpending, (List.pairwise_cons.1 ho).1, hclock, hscheduled⟩

/-- What comes out first is due no later than all that waits. -/
theorem Ordered.head_due_le {rest : List (Entry τ)} (ho : t.Ordered)
    (hp : t.pending = e :: rest) : ∀ f ∈ t.pending, e.due ≤ f.due := by
  unfold Ordered at ho
  rw [hp] at ho ⊢
  intro f hf
  rcases List.mem_cons.1 hf with rfl | hf
  · exact Nat.le_refl _
  · exact ((List.pairwise_cons.1 ho).1 f hf).due_le

/-- Nothing is taken out exactly if nothing that waits is due. -/
theorem Ordered.popDue?_eq_none_iff (ho : t.Ordered) :
    t.popDue? limit = none ↔ ∀ e ∈ t.pending, limit < e.due := by
  rw [Timeline.popDue?_eq_none_iff]
  constructor
  · intro hfirst f hf
    cases hp : t.pending with
    | nil =>
      rw [hp] at hf
      cases hf
    | cons e rest =>
      have hlt := hfirst e (by rw [hp]; rfl)
      exact Nat.lt_of_lt_of_le hlt (ho.head_due_le hp f hf)
  · intro hall e he
    exact hall e (List.mem_of_head? he)

theorem Ordered.nextDue?_eq_some_iff (ho : t.Ordered) :
    t.nextDue? = some due ↔ (∃ e ∈ t.pending, e.due = due) ∧ ∀ e ∈ t.pending, due ≤ e.due := by
  unfold nextDue?
  cases hp : t.pending with
  | nil => simp
  | cons e rest =>
    have hle := ho.head_due_le hp
    rw [hp] at hle
    simp only [List.head?_cons, Option.map_some, Option.some.injEq]
    constructor
    · rintro rfl
      exact ⟨⟨e, List.mem_cons_self .., rfl⟩, hle⟩
    · rintro ⟨⟨f, hf, rfl⟩, hleast⟩
      exact Duration.ext (Nat.le_antisymm (hle f hf) (hleast e (List.mem_cons_self ..)))

/-- Taking out what is due by a moment, as often as there is something, takes out all of it. -/
theorem Ordered.useAll_popDue (ho : t.Ordered) {n : Nat}
    (hn : (t.pending.filter (·.due ≤ limit)).length ≤ n) :
    ∃ t', t.useAll (List.replicate n (.popDue limit)) = .ok (t.pending.filter (·.due ≤ limit), t') ∧
      ∀ e ∈ t'.pending, limit < e.due := by
  induction n generalizing t with
  | zero =>
    have hnone := List.filter_eq_nil_iff.1 (List.length_eq_zero_iff.1 (Nat.le_zero.1 hn))
    rw [List.filter_eq_nil_iff.2 hnone]
    refine ⟨t, rfl, ?_⟩
    intro e he
    exact Nat.lt_of_not_le fun hle => hnone e he (decide_eq_true hle)
  | succ n ih =>
    rw [List.replicate_succ]
    cases hp : t.popDue? limit with
    | none =>
      have hlater := ho.popDue?_eq_none_iff.1 hp
      have hnone : t.pending.filter (·.due ≤ limit) = [] :=
        List.filter_eq_nil_iff.2 fun e he hle => Nat.not_le.2 (hlater e he) (of_decide_eq_true hle)
      obtain ⟨t', hrest, hlast⟩ := ih ho (by rw [hnone]; exact Nat.zero_le n)
      exact ⟨t', useAll_cons.2 ⟨none, t, _, use_popDue_eq_none hp, hrest, rfl⟩, hlast⟩
    | some out =>
      obtain ⟨e, t₁⟩ := out
      obtain ⟨hpop, hdue⟩ := popDue?_eq_some_iff.1 hp
      have hfilter : t.pending.filter (·.due ≤ limit) = e :: t₁.pending.filter (·.due ≤ limit) := by
        rw [(pop?_eq_some_iff.1 hpop).1, List.filter_cons, if_pos (decide_eq_true hdue)]
      rw [hfilter] at hn ⊢
      obtain ⟨t', hrest, hlast⟩ := ih (ho.use (.pop hpop hdue)) (Nat.le_of_succ_le_succ hn)
      exact ⟨t', useAll_cons.2 ⟨some e, t₁, _, use_popDue_eq_some hp, hrest, rfl⟩, hlast⟩

/-! ## What a queue promises -/

/-- Whatever was done with a timeline: every task that was ever scheduled either waits or was taken
out, once in all, under the number that it was given, and no task waits under the key that the next
one gets.  What is due by a moment is taken out in the order of due time, then of scheduling, one at
a time or all of it; if nothing is due by then, nothing changes.  The clock does not go back, and
the next due time is the least. -/
theorem takes_each_entry_once_in_order (h : (start : Timeline τ).useAll us = .ok (taken, t)) :
    ((taken ++ t.pending).Perm (start.entered us) ∧
      (start.entered us).map Entry.task = us.filterMap TimelineUse.task? ∧
      (start.entered us).map Entry.order = List.range (start.entered us).length ∧
      ∀ due, ∀ e ∈ t.pending, e.key ≠ (due, t.scheduled)) ∧
    (∀ limit e t', t.popDue? limit = some (e, t') → e.due ≤ limit ∧ t.ComesFirst e t') ∧
    (∀ limit, t.popDue? limit = none ↔ ∀ e ∈ t.pending, limit < e.due) ∧
    (∀ limit, t.popDue? limit = none → t.use (.popDue limit) = .ok (none, t)) ∧
    (∀ u answer t', t.use u = .ok (answer, t') → t.now ≤ t'.now) ∧
    (∀ due, t.nextDue? = some due ↔
      (∃ e ∈ t.pending, e.due = due) ∧ ∀ e ∈ t.pending, due ≤ e.due) ∧
    ∀ limit n, (t.pending.filter (·.due ≤ limit)).length ≤ n →
      ∃ drained t', t.useAll (List.replicate n (.popDue limit)) = .ok (drained, t') ∧
        drained.Perm (t.pending.filter (·.due ≤ limit)) ∧ drained.Pairwise Entry.Before ∧
        ∀ e ∈ t'.pending, limit < e.due := by
  have ho : t.Ordered := ordered_start.useAll h
  refine ⟨⟨useAll_perm h, map_task_entered h, ?_, t.key_fresh⟩, ?_,
    fun limit => ho.popDue?_eq_none_iff,
    fun limit => use_popDue_eq_none, fun u answer t' hu => (uses_of_use hu).now_le,
    fun due => ho.nextDue?_eq_some_iff, ?_⟩
  · rw [List.range_eq_range']
    exact map_order_entered start us
  · intro limit e t' hp
    obtain ⟨hpop, hdue⟩ := popDue?_eq_some_iff.1 hp
    exact ⟨hdue, ho.comesFirst hpop⟩
  · intro limit n hn
    obtain ⟨t', hdrain, hlater⟩ := ho.useAll_popDue hn
    exact ⟨_, t', hdrain, .refl _, List.Pairwise.filter _ ho, hlater⟩

/-- Two tasks that the clock passes, and one that is scheduled later for the time that it shows. -/
def overtaken : List (TimelineUse String) := [
  .after (.ofMillis 20) "b",
  .after (.ofMillis 10) "a",
  .popDue (.ofMillis 5),
  .after (.ofMillis 20) "c",
  .popDue (.ofMillis 15),
  .advanceTo (.ofMillis 40),
  .after .zero "d",
  .popDue (.ofMillis 20)]

/-- One task waits from before the jump and is overdue; both that wait come out by their due
times. -/
theorem takes_overtaken :
    ∃ taken t, start.useAll overtaken = .ok (taken, t) ∧
      (taken ++ t.pending).Perm (start.entered overtaken) ∧
      taken.map Entry.task = ["a", "b"] ∧ t.now = .ofMillis 40 ∧
      t.nextDue? = some (.ofMillis 20) ∧
      ∃ drained t', t.useAll (List.replicate 2 (.popDue (.ofMillis 40))) = .ok (drained, t') ∧
        drained.Pairwise Entry.Before ∧ drained.length = 2 := by
  obtain ⟨taken, t, hrun, htaken, hnow, hdue, hlength⟩ : ∃ taken t,
      start.useAll overtaken = .ok (taken, t) ∧ taken.map Entry.task = ["a", "b"] ∧
        t.now = .ofMillis 40 ∧ t.nextDue? = some (.ofMillis 20) ∧
        (t.pending.filter (·.due ≤ .ofMillis 40)).length = 2 := ⟨_, _, rfl, rfl, rfl, rfl, rfl⟩
  obtain ⟨⟨hperm, -⟩, -, -, -, -, -, hdrain⟩ := takes_each_entry_once_in_order hrun
  obtain ⟨drained, t', hdrained, hsame, hsorted, -⟩ :=
    hdrain (.ofMillis 40) 2 (Nat.le_of_eq hlength)
  exact ⟨taken, t, hrun, hperm, htaken, hnow, hdue, drained, t', hdrained, hsorted,
    hsame.length_eq.trans hlength⟩

end Timeline

end Sparkboard
