import Sparkboard.Timeline
/-!
# Timelines as queues

What scheduling and taking out do to the waiting entries.  A new entry has a key that none of them
has (`key_fresh`), so it replaces nothing and stands behind all that are due no later
(`enqueue_cons`).  In a sound timeline the entries stand in the order of due time, then of
scheduling, and none is overdue.  `Sound.push`, `Sound.pop` and `Sound.advanceTo` say that all that
moves a timeline keeps it sound.
-/

namespace Sparkboard

/-- The clock does not show less after a while. -/
theorem Duration.le_of_add? {a b c : Duration} (h : a.add? b = some c) : a ≤ c := by
  rw [add?_eq_some_iff] at h
  rw [le_def]
  omega

theorem Entry.Before.trans {τ : Type} {e f g : Entry τ} (h : e.Before f) (h' : f.Before g) :
    e.Before g := by
  unfold Entry.Before at *
  simp only [Duration.lt_def, Duration.ext_iff] at *
  omega

theorem Entry.Before.of_key_eq {τ : Type} {e f g : Entry τ} (h : f.Before g)
    (hkey : e.key = f.key) : e.Before g := by
  unfold Entry.Before Entry.key at *
  obtain ⟨hdue, horder⟩ := Prod.mk.inj hkey
  rw [hdue, horder]
  exact h

theorem Entry.key_eq_of_not_before {τ : Type} {e f : Entry τ} (hef : ¬e.Before f)
    (hfe : ¬f.Before e) : e.key = f.key := by
  unfold Entry.Before Entry.key at *
  simp only [Duration.lt_def, Duration.ext_iff, Prod.mk.injEq] at *
  omega

theorem Entry.Before.due_le {τ : Type} {e f : Entry τ} (h : e.Before f) :
    e.due.nanos ≤ f.due.nanos := by
  rcases h with hlt | ⟨heq, -⟩
  · rw [Duration.lt_def] at hlt; omega
  · exact Nat.le_of_eq (congrArg _ heq)

/-- When an entry is due and what is to be done, without its number. -/
def Entry.plan {τ : Type} (e : Entry τ) : Duration × τ := (e.due, e.task)

namespace Timeline

variable {τ : Type} {t t' : Timeline τ} {e : Entry τ} {task : τ} {delay due moment : Duration}

theorem after_eq_ok_iff :
    t.after delay task = .ok t' ↔ ∃ due, t.now.add? delay = some due ∧ t' = t.push due task := by
  unfold after
  cases t.now.add? delay with
  | none => simp
  | some due =>
    simp only [Except.ok.injEq, Option.some.injEq, exists_eq_left']
    exact eq_comm

/-! ## The key of a new entry -/

/-- **No entry that waits has the key of the next one**, whenever that is due: its number was never
given before. -/
theorem key_fresh (t : Timeline τ) (due : Duration) :
    ∀ e ∈ t.pending, e.key ≠ (due, t.scheduled) := by
  intro e he heq
  have hlt := t.order_lt e he
  rw [(Prod.mk.inj heq).2] at hlt
  exact Nat.lt_irrefl _ hlt

section

variable {xs : List (Entry τ)}

/-- A new key replaces no entry. -/
theorem enqueue_perm (hk : ∀ x ∈ xs, x.key ≠ e.key) : (enqueue e xs).Perm (e :: xs) := by
  induction xs with
  | nil => exact .refl _
  | cons x xs ih =>
    obtain ⟨hx, hxs⟩ := List.forall_mem_cons.1 hk
    unfold enqueue
    split
    · exact .refl _
    split
    · exact ((ih hxs).cons x).trans (.swap e x xs)
    · next hex hxe => exact absurd (Entry.key_eq_of_not_before hxe hex) hx

/-- A key that is there already loses its task. -/
example : enqueue ⟨.zero, 7, "new"⟩ [⟨.zero, 6, "first"⟩, ⟨.zero, 7, "old"⟩] =
    [⟨.zero, 6, "first"⟩, ⟨.zero, 7, "new"⟩] := by decide

/-- Among the entries of one kind, an entry of another kind makes no difference. -/
theorem filter_enqueue {p : Entry τ → Bool} (hp : p e = false) (hk : ∀ x ∈ xs, x.key ≠ e.key) :
    (enqueue e xs).filter p = xs.filter p := by
  induction xs with
  | nil =>
    rw [enqueue, List.filter_cons, hp]
    rfl
  | cons x xs ih =>
    obtain ⟨hx, hxs⟩ := List.forall_mem_cons.1 hk
    unfold enqueue
    split
    · rw [List.filter_cons, hp]
      rfl
    split
    · rw [List.filter_cons, List.filter_cons, ih hxs]
    · next hex hxe => exact absurd (Entry.key_eq_of_not_before hxe hex) hx

/-- Behind smaller numbers a key is placed by its due time alone. -/
theorem enqueue_cons {x : Entry τ} (ho : x.order < e.order) :
    enqueue e (x :: xs) = if e.due < x.due then e :: x :: xs else x :: enqueue e xs := by
  rw [enqueue]
  by_cases hlt : e.due < x.due
  · rw [if_pos (.inl hlt), if_pos hlt]
  · have hbefore : ¬e.Before x := by
      rintro (h | ⟨-, h⟩)
      · exact hlt h
      · omega
    have hafter : x.Before e := by
      rw [Duration.lt_def] at hlt
      rcases Nat.lt_or_eq_of_le (Nat.le_of_not_lt hlt) with h | h
      · exact .inl h
      · exact .inr ⟨Duration.ext h, ho⟩
    rw [if_neg hbefore, if_pos hafter, if_neg hlt]

end

/-- Scheduling keeps the entries that wait. -/
theorem pending_push (t : Timeline τ) (due : Duration) (task : τ) :
    (t.push due task).pending.Perm (⟨due, t.scheduled, task⟩ :: t.pending) :=
  enqueue_perm (t.key_fresh due)

theorem mem_push :
    e ∈ (t.push due task).pending ↔ e = ⟨due, t.scheduled, task⟩ ∨ e ∈ t.pending := by
  rw [(pending_push t due task).mem_iff, List.mem_cons]

theorem filter_push {p : Entry τ → Bool} (hp : p ⟨due, t.scheduled, task⟩ = false) :
    (t.push due task).pending.filter p = t.pending.filter p :=
  filter_enqueue hp (t.key_fresh due)

/-- A task that was taken out stood first, and the clock shows its due time unless it was later
already. -/
theorem pop?_eq_some_iff :
    t.pop? = some (e, t') ↔
      t.pending = e :: t'.pending ∧ t'.now = t.now.latest e.due ∧ t'.scheduled = t.scheduled := by
  obtain ⟨now, scheduled, pending, _⟩ := t
  obtain ⟨now', scheduled', pending', _⟩ := t'
  unfold pop?
  cases pending with
  | nil => simp
  | cons x rest =>
    simp only [List.head?_cons, List.tail_cons, Option.map_some, Option.some.injEq, Prod.mk.injEq,
      mk.injEq, List.cons.injEq]
    constructor
    · rintro ⟨rfl, rfl, rfl, rfl⟩
      exact ⟨⟨rfl, rfl⟩, rfl, rfl⟩
    · rintro ⟨⟨rfl, rfl⟩, rfl, rfl⟩
      exact ⟨rfl, rfl, rfl, rfl⟩

theorem pop?_eq_none_iff : t.pop? = none ↔ t.pending = [] := by
  unfold pop?
  rw [Option.map_eq_none_iff, List.head?_eq_none_iff]

theorem popDue?_eq_some_iff :
    t.popDue? moment = some (e, t') ↔ t.pop? = some (e, t') ∧ e.due ≤ moment := by
  unfold popDue? nextDue?
  cases hhead : t.pending.head? with
  | none => simp [pop?, hhead]
  | some x =>
    by_cases hx : x.due ≤ moment
    · simp only [Option.map_some, hx, if_true, pop?, hhead, Option.some.injEq, Prod.mk.injEq]
      constructor
      · rintro ⟨rfl, rfl⟩
        exact ⟨⟨rfl, rfl⟩, hx⟩
      · exact And.left
    · simp only [Option.map_some, hx, if_false, pop?, hhead, Option.some.injEq, Prod.mk.injEq,
        reduceCtorEq, false_iff]
      rintro ⟨⟨rfl, -⟩, h⟩
      exact hx h

theorem popDue?_eq_none_iff :
    t.popDue? moment = none ↔ ∀ e, t.pending.head? = some e → moment < e.due := by
  unfold popDue? nextDue?
  cases hhead : t.pending.head? with
  | none => simp
  | some x =>
    by_cases hx : x.due ≤ moment
    · simp only [Option.map_some, hx, if_true, pop?, hhead, reduceCtorEq, Option.some.injEq,
        false_iff]
      intro h
      have hlt := h x rfl
      rw [Duration.le_def] at hx
      rw [Duration.lt_def] at hlt
      omega
    · simp only [Option.map_some, hx, if_false, Option.some.injEq, true_iff]
      rintro e rfl
      rw [Duration.le_def] at hx
      rw [Duration.lt_def]
      omega

section

variable {early late : Duration}

theorem popDue?_mono (hle : early ≤ late) (h : t.popDue? early = some (e, t')) :
    t.popDue? late = some (e, t') := by
  rw [popDue?_eq_some_iff] at h ⊢
  refine ⟨h.1, ?_⟩
  have hdue := h.2
  rw [Duration.le_def] at hdue hle ⊢
  omega

/-- If nothing is due by a moment, nothing is by any earlier one. -/
theorem popDue?_eq_none_mono (hle : early ≤ late) (h : t.popDue? late = none) :
    t.popDue? early = none := by
  rw [popDue?_eq_none_iff] at h ⊢
  intro e he
  have hlt := h e he
  rw [Duration.le_def] at hle
  rw [Duration.lt_def] at hlt ⊢
  omega

theorem popDue?_eq_none_of_pop? (hp : t.pop? = some (e, t')) (hdue : ¬e.due ≤ moment) :
    t.popDue? moment = none := by
  rw [popDue?_eq_none_iff, (pop?_eq_some_iff.1 hp).1]
  intro x hx
  cases hx
  rw [Duration.le_def] at hdue
  rw [Duration.lt_def]
  omega

end

/-! ## The entries of one kind -/

theorem enqueue_of_lt {xs : List (Entry τ)} (h : ∀ x ∈ xs, e.due < x.due) :
    enqueue e xs = e :: xs := by
  cases xs with
  | nil => rfl
  | cons x xs =>
    rw [enqueue, if_pos (.inl (h x (List.mem_cons_self ..)))]

/-- An entry finds its place among the entries of its kind as it does among all. -/
theorem filter_enqueue_self {p : Entry τ → Bool} (hp : p e = true) {xs : List (Entry τ)}
    (hs : xs.Pairwise Entry.Before) (ho : ∀ x ∈ xs, x.order < e.order) :
    (enqueue e xs).filter p = enqueue e (xs.filter p) := by
  induction xs with
  | nil =>
    rw [enqueue, List.filter_cons_of_pos hp]
    rfl
  | cons x xs ih =>
    obtain ⟨hx, hxs⟩ := List.pairwise_cons.1 hs
    obtain ⟨hxo, hxso⟩ := List.forall_mem_cons.1 ho
    rw [enqueue_cons hxo]
    split
    · next hlt =>
      have hfirst : ∀ y ∈ (x :: xs).filter p, e.due < y.due := by
        intro y hy
        rcases List.mem_cons.1 (List.mem_filter.1 hy).1 with rfl | hy
        · exact hlt
        · have hle := (hx y hy).due_le
          rw [Duration.lt_def] at hlt ⊢
          omega
      rw [List.filter_cons_of_pos hp, enqueue_of_lt hfirst]
    · next hge =>
      by_cases hpx : p x = true
      · rw [List.filter_cons_of_pos hpx, List.filter_cons_of_pos hpx, enqueue_cons hxo, if_neg hge,
          ih hxs hxso]
      · rw [List.filter_cons_of_neg hpx, List.filter_cons_of_neg hpx, ih hxs hxso]

/-- `enqueue` for entries without their numbers. -/
def enter (p : Duration × τ) : List (Duration × τ) → List (Duration × τ)
  | [] => [p]
  | x :: xs => if p.1 < x.1 then p :: x :: xs else x :: enter p xs

/-- The numbers of the entries are not seen in where a new one finds its place. -/
theorem map_plan_enqueue {xs : List (Entry τ)} (ho : ∀ x ∈ xs, x.order < e.order) :
    (enqueue e xs).map Entry.plan = enter e.plan (xs.map Entry.plan) := by
  induction xs with
  | nil => rfl
  | cons x xs ih =>
    obtain ⟨hxo, hxso⟩ := List.forall_mem_cons.1 ho
    rw [enqueue_cons hxo, List.map_cons, enter]
    by_cases hx : e.due < x.due
    · have hx' : e.plan.1 < x.plan.1 := hx
      rw [if_pos hx, if_pos hx']
      rfl
    · have hx' : ¬e.plan.1 < x.plan.1 := hx
      rw [if_neg hx, if_neg hx', List.map_cons, ih hxso]

section

variable {p : τ → Bool}

/-- The waiting tasks of one kind, each with the time when it is due, in order. -/
def agenda (t : Timeline τ) (p : τ → Bool) : List (Duration × τ) :=
  (t.pending.filter fun e => p e.task).map Entry.plan

theorem mem_agenda {x : Duration × τ} :
    x ∈ t.agenda p ↔ ∃ e ∈ t.pending, p e.task = true ∧ e.plan = x := by
  unfold agenda
  rw [List.mem_map]
  constructor
  · rintro ⟨e, he, hx⟩
    rw [List.mem_filter] at he
    exact ⟨e, he.1, he.2, hx⟩
  · rintro ⟨e, he, hp, hx⟩
    exact ⟨e, List.mem_filter.2 ⟨he, hp⟩, hx⟩

theorem agenda_push_other (h : p task = false) : (t.push due task).agenda p = t.agenda p := by
  unfold agenda
  rw [filter_push h]

theorem agenda_pop_other (hp : t.pop? = some (e, t')) (h : p e.task = false) :
    t'.agenda p = t.agenda p := by
  unfold agenda
  rw [(pop?_eq_some_iff.1 hp).1, List.filter_cons, h]
  rfl

/-- A task that is taken out stood first among those of its kind. -/
theorem agenda_pop_self (hp : t.pop? = some (e, t')) (h : p e.task = true) :
    t.agenda p = e.plan :: t'.agenda p := by
  unfold agenda
  rw [(pop?_eq_some_iff.1 hp).1, List.filter_cons, h]
  rfl

theorem agenda_filter {q : τ → Bool} (h : ∀ task, q task = true → p task = true) (t : Timeline τ) :
    t.agenda q = (t.agenda p).filter fun x => q x.2 := by
  unfold agenda
  rw [List.filter_map, List.filter_filter]
  congr 1
  apply List.filter_congr
  intro e _
  show q e.task = (q e.task && p e.task)
  cases hq : q e.task with
  | false => rfl
  | true => rw [h _ hq]; rfl

end

/-! ## When a task is due -/

section

variable [DecidableEq τ]

/-- The times when a task is due, in order. -/
def dues (t : Timeline τ) (task : τ) : List Duration :=
  (t.agenda (· = task)).map Prod.fst

theorem mem_dues : due ∈ t.dues task ↔ ∃ e ∈ t.pending, e.task = task ∧ e.due = due := by
  unfold dues
  rw [List.mem_map]
  constructor
  · rintro ⟨x, hx, rfl⟩
    obtain ⟨e, he, ht, rfl⟩ := mem_agenda.1 hx
    exact ⟨e, he, of_decide_eq_true ht, rfl⟩
  · rintro ⟨e, he, ht, rfl⟩
    exact ⟨e.plan, mem_agenda.2 ⟨e, he, decide_eq_true ht, rfl⟩, rfl⟩

theorem dues_eq_nil_iff : t.dues task = [] ↔ ∀ e ∈ t.pending, e.task ≠ task := by
  rw [List.eq_nil_iff_forall_not_mem]
  constructor
  · intro hnone e he ht
    exact hnone e.due (mem_dues.2 ⟨e, he, ht, rfl⟩)
  · intro hne due hdue
    obtain ⟨e, he, ht, -⟩ := mem_dues.1 hdue
    exact hne e he ht

theorem dues_push_other {other : τ} (h : other ≠ task) :
    (t.push due other).dues task = t.dues task := by
  unfold dues
  rw [agenda_push_other (p := (· = task)) (decide_eq_false h)]

theorem dues_pop_other (hp : t.pop? = some (e, t')) (h : e.task ≠ task) :
    t'.dues task = t.dues task := by
  unfold dues
  rw [agenda_pop_other (p := (· = task)) hp (decide_eq_false h)]

theorem dues_pop_self (hp : t.pop? = some (e, t')) (h : e.task = task) :
    t.dues task = e.due :: t'.dues task := by
  unfold dues
  rw [agenda_pop_self (p := (· = task)) hp (decide_eq_true h)]
  rfl

end

/-! ## How often a task waits -/

section

variable [DecidableEq τ]

def waiting (t : Timeline τ) (task : τ) : Nat :=
  t.pending.countP fun e => e.task = task

theorem waiting_push (t : Timeline τ) (due : Duration) (task other : τ) :
    (t.push due task).waiting other = t.waiting other + if task = other then 1 else 0 := by
  unfold waiting
  rw [(pending_push t due task).countP_eq, List.countP_cons]
  simp only [decide_eq_true_eq]

theorem waiting_pop (h : t.pop? = some (e, t')) (other : τ) :
    t.waiting other = t'.waiting other + if e.task = other then 1 else 0 := by
  unfold waiting
  rw [(pop?_eq_some_iff.1 h).1, List.countP_cons]
  simp only [decide_eq_true_eq]

theorem waiting_pos_iff : 0 < t.waiting task ↔ ∃ e ∈ t.pending, e.task = task := by
  unfold waiting
  rw [List.countP_pos_iff]
  simp only [decide_eq_true_eq]

end

/-! ## Sound timelines -/

/-- The entries stand in the order in which they come out, and the clock has not passed any of
them. -/
structure Sound (t : Timeline τ) : Prop where
  sorted : t.pending.Pairwise Entry.Before
  now_le : ∀ e ∈ t.pending, t.now ≤ e.due

theorem sound_start : (start : Timeline τ).Sound where
  sorted := .nil
  now_le := by intro e he; cases he

/-- An insertion keeps the order of the keys. -/
theorem pairwise_enqueue {xs : List (Entry τ)} (hs : xs.Pairwise Entry.Before) :
    (enqueue e xs).Pairwise Entry.Before := by
  induction xs with
  | nil => exact List.pairwise_singleton _ _
  | cons x xs ih =>
    obtain ⟨hx, hxs⟩ := List.pairwise_cons.1 hs
    rw [enqueue]
    split
    · next hbefore =>
      refine List.pairwise_cons.2 ⟨?_, hs⟩
      exact List.forall_mem_cons.2 ⟨hbefore, fun y hy => hbefore.trans (hx y hy)⟩
    split
    · next hafter =>
      refine List.pairwise_cons.2 ⟨fun y hy => ?_, ih hxs⟩
      rcases mem_of_mem_enqueue hy with rfl | hy
      · exact hafter
      · exact hx y hy
    · next hex hxe =>
      have hkey : e.key = x.key := Entry.key_eq_of_not_before hex hxe
      exact List.pairwise_cons.2 ⟨fun y hy => (hx y hy).of_key_eq hkey, hxs⟩

theorem Sound.push (h : t.Sound) (hd : t.now ≤ due) : (t.push due task).Sound where
  sorted := pairwise_enqueue h.sorted
  now_le := by
    intro e he
    rcases mem_push.1 he with rfl | he
    · exact hd
    · exact h.now_le e he

theorem mem_of_pop? (hp : t.pop? = some (e, t')) : e ∈ t.pending := by
  rw [(pop?_eq_some_iff.1 hp).1]
  exact List.mem_cons_self ..

theorem mem_of_mem_pop {f : Entry τ} (hp : t.pop? = some (e, t')) (hf : f ∈ t'.pending) :
    f ∈ t.pending := by
  rw [(pop?_eq_some_iff.1 hp).1]
  exact List.mem_cons_of_mem e hf

theorem Sound.pop (h : t.Sound) (hp : t.pop? = some (e, t')) : t'.Sound := by
  obtain ⟨hpe, hclock, -⟩ := pop?_eq_some_iff.1 hp
  have hs := h.sorted
  rw [hpe] at hs
  refine ⟨(List.pairwise_cons.1 hs).2, ?_⟩
  intro f hf
  have hnow := h.now_le f (mem_of_mem_pop hp hf)
  have hdue := ((List.pairwise_cons.1 hs).1 f hf).due_le
  rw [hclock, Duration.le_def, Duration.nanos_latest]
  rw [Duration.le_def] at hnow
  omega

theorem Sound.lt_due (h : t.Sound) (hm : ∀ e, t.pending.head? = some e → moment < e.due) :
    ∀ e ∈ t.pending, moment < e.due := by
  intro e he
  cases hp : t.pending with
  | nil => rw [hp] at he; cases he
  | cons x rest =>
    have hx := hm x (by rw [hp]; rfl)
    rw [hp] at he
    rcases List.mem_cons.1 he with rfl | he
    · exact hx
    · have hs := h.sorted
      rw [hp] at hs
      exact Nat.lt_of_lt_of_le hx ((List.pairwise_cons.1 hs).1 e he).due_le

theorem Sound.advanceTo (h : t.Sound) (hm : ∀ e, t.pending.head? = some e → moment < e.due) :
    (t.advanceTo moment).Sound where
  sorted := h.sorted
  now_le := by
    intro e he
    have hnow := h.now_le e he
    have hdue := h.lt_due hm e he
    show t.now.latest moment ≤ e.due
    rw [Duration.le_def, Duration.nanos_latest]
    rw [Duration.le_def] at hnow
    rw [Duration.lt_def] at hdue
    omega

/-- A task that is scheduled finds its place among those of its kind. -/
theorem Sound.agenda_push (hs : t.Sound) {p : τ → Bool} (h : p task = true) :
    (t.push due task).agenda p = enter (due, task) (t.agenda p) := by
  have hkind : p (⟨due, t.scheduled, task⟩ : Entry τ).task = true := h
  unfold agenda Timeline.push
  dsimp only
  rw [filter_enqueue_self hkind hs.sorted t.order_lt,
    map_plan_enqueue fun e he => t.order_lt e (List.mem_filter.1 he).1]
  rfl

/-- A task that did not wait is due once. -/
theorem Sound.dues_push [DecidableEq τ] (hs : t.Sound) (hn : t.dues task = []) :
    (t.push due task).dues task = [due] := by
  unfold dues at hn ⊢
  rw [List.map_eq_nil_iff] at hn
  rw [hs.agenda_push (p := (· = task)) (decide_eq_true rfl), hn]
  rfl

/-- A task that is taken out is run when it is due. -/
theorem Sound.now_pop (hs : t.Sound) (hp : t.pop? = some (e, t')) : t'.now = e.due := by
  have hle := hs.now_le e (mem_of_pop? hp)
  rw [(pop?_eq_some_iff.1 hp).2.1]
  apply Duration.ext
  rw [Duration.nanos_latest]
  rw [Duration.le_def] at hle
  omega

/-! ## All that moves a timeline -/

/-- Nothing or one more task is scheduled. -/
inductive Grows (t : Timeline τ) : Timeline τ → Prop where
  | same : Grows t t
  | push {due : Duration} {task : τ} (hd : t.now ≤ due) : Grows t (t.push due task)

/-- A timeline grows, or a task is taken out before, or the clock moves on up to the next task. -/
inductive Moves (t : Timeline τ) : Timeline τ → Prop where
  | grow {t' : Timeline τ} (h : t.Grows t') : Moves t t'
  | pop {e : Entry τ} {t₁ t' : Timeline τ} (hp : t.pop? = some (e, t₁)) (h : t₁.Grows t') :
    Moves t t'
  | wait {moment : Duration} (hm : ∀ e, t.pending.head? = some e → moment < e.due) :
    Moves t (t.advanceTo moment)

theorem Grows.sound (h : t.Grows t') (hs : t.Sound) : t'.Sound := by
  cases h with
  | same => exact hs
  | push hd => exact hs.push hd

theorem Moves.sound (h : t.Moves t') (hs : t.Sound) : t'.Sound := by
  cases h with
  | grow h => exact h.sound hs
  | pop hp h => exact h.sound (hs.pop hp)
  | wait hm => exact hs.advanceTo hm

theorem Grows.now_eq (h : t.Grows t') : t'.now = t.now := by
  cases h <;> rfl

/-- The clock never goes back. -/
theorem Moves.now_le (h : t.Moves t') : t.now ≤ t'.now := by
  have hlatest (moment : Duration) : t.now ≤ t.now.latest moment := by
    rw [Duration.le_def, Duration.nanos_latest]
    exact Nat.le_max_left ..
  cases h with
  | grow h =>
    rw [h.now_eq]
    exact Nat.le_refl _
  | pop hp h =>
    rw [h.now_eq, (pop?_eq_some_iff.1 hp).2.1]
    exact hlatest _
  | wait => exact hlatest _

theorem scheduled_pop (hp : t.pop? = some (e, t')) : t'.scheduled = t.scheduled :=
  (pop?_eq_some_iff.1 hp).2.2

theorem Grows.scheduled_le (h : t.Grows t') : t.scheduled ≤ t'.scheduled := by
  cases h with
  | same => exact Nat.le_refl _
  | push => exact Nat.le_succ _

theorem Moves.scheduled_le (h : t.Moves t') : t.scheduled ≤ t'.scheduled := by
  cases h with
  | grow h => exact h.scheduled_le
  | pop hp h =>
    rw [← scheduled_pop hp]
    exact h.scheduled_le
  | wait => exact Nat.le_refl _

theorem Grows.mem_pending (h : t.Grows t') (he : e ∈ t'.pending) :
    e ∈ t.pending ∨ e.order = t.scheduled := by
  cases h with
  | same => exact .inl he
  | push =>
    rcases mem_push.1 he with rfl | he
    · exact .inr rfl
    · exact .inl he

/-- An entry that waits waited before, or it is the one scheduled last. -/
theorem Moves.mem_pending (h : t.Moves t') (he : e ∈ t'.pending) :
    e ∈ t.pending ∨ e.order = t.scheduled := by
  cases h with
  | grow h => exact h.mem_pending he
  | pop hp h =>
    rcases h.mem_pending he with he | ho
    · exact .inl (mem_of_mem_pop hp he)
    · exact .inr (ho.trans (scheduled_pop hp))
  | wait => exact .inl he

end Timeline

end Sparkboard
