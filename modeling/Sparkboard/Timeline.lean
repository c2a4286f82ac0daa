import Sparkboard.Time.Duration
/-!
# Timelines

Delayed work on a clock that moves only when it is told to.  Tasks come out by due time, and tasks
due at the same time in the order in which they were scheduled.

The pending tasks are a table whose keys are the due time and the number that a task gets when it is
scheduled.  A key that is there already would lose its task to the new one, so the numbers matter:
all that were given are below the number of tasks ever scheduled.
-/

namespace Sparkboard

/-- A task that waits for its time. -/
structure Entry (τ : Type) where
  due : Duration
  /-- How many tasks were scheduled before this one. -/
  order : Nat
  task : τ
  deriving DecidableEq, Repr

/-- What the table of an entry is sorted by. -/
def Entry.key {τ : Type} (e : Entry τ) : Duration × Nat := (e.due, e.order)

/-- Is the key of `e` before that of `f`? -/
def Entry.Before {τ : Type} (e f : Entry τ) : Prop :=
  e.due < f.due ∨ e.due = f.due ∧ e.order < f.order

instance {τ : Type} (e f : Entry τ) : Decidable (e.Before f) :=
  inferInstanceAs (Decidable (_ ∨ _))

/-- A clock and the tasks that wait on it. -/
structure Timeline (τ : Type) where
  now : Duration
  /-- How many tasks were ever scheduled. -/
  scheduled : Nat
  /-- The waiting tasks, the next one first. -/
  pending : List (Entry τ)
  order_lt : ∀ e ∈ pending, e.order < scheduled
  deriving DecidableEq, Repr

/-- The clock would have to show more than the longest duration. -/
inductive ClockOverflow where
  | overflow
  deriving DecidableEq, Repr

namespace ClockOverflow

def message : ClockOverflow → String
  | overflow => "overflow when adding durations"

end ClockOverflow

namespace Timeline

variable {τ : Type}

/-- A clock at zero with nothing to do. -/
def start : Timeline τ := ⟨.zero, 0, [], nofun⟩

instance : Inhabited (Timeline τ) := ⟨start⟩

/-- Puts an entry at the place of its key.  An entry that has the same key is replaced. -/
def enqueue (e : Entry τ) : List (Entry τ) → List (Entry τ)
  | [] => [e]
  | x :: xs =>
    if e.Before x then e :: x :: xs
    else if x.Before e then x :: enqueue e xs
    else e :: xs

theorem mem_of_mem_enqueue {e f : Entry τ} {xs : List (Entry τ)} (h : f ∈ enqueue e xs) :
    f = e ∨ f ∈ xs := by
  induction xs with
  | nil => exact List.mem_cons.1 h
  | cons x xs ih =>
    unfold enqueue at h
    split at h
    · exact List.mem_cons.1 h
    split at h
    · rcases List.mem_cons.1 h with rfl | h
      · exact .inr (List.mem_cons_self ..)
      · exact (ih h).imp_right (List.mem_cons_of_mem x)
    · exact (List.mem_cons.1 h).imp_right (List.mem_cons_of_mem x)

/-- The timeline with one more task, due at `due`. -/
def push (t : Timeline τ) (due : Duration) (task : τ) : Timeline τ where
  now := t.now
  scheduled := t.scheduled + 1
  pending := enqueue ⟨due, t.scheduled, task⟩ t.pending
  order_lt e he := by
    rcases mem_of_mem_enqueue he with rfl | he
    · exact Nat.lt_succ_self _
    · exact Nat.lt_succ_of_lt (t.order_lt e he)

/-- Schedules a task for `delay` from now. -/
def after (t : Timeline τ) (delay : Duration) (task : τ) : Except ClockOverflow (Timeline τ) :=
  match t.now.add? delay with
  | none => .error .overflow
  | some due => .ok (t.push due task)

def nextDue? (t : Timeline τ) : Option Duration :=
  t.pending.head?.map Entry.due

/-- Takes out the next task and moves the clock to its due time, if the clock is not there yet. -/
def pop? (t : Timeline τ) : Option (Entry τ × Timeline τ) :=
  t.pending.head?.map fun e =>
    (e, { t with
      now := t.now.latest e.due
      pending := t.pending.tail
      order_lt := fun f hf => t.order_lt f (List.mem_of_mem_tail hf) })

/-- Takes out the next task if it is due by `limit`. -/
def popDue? (t : Timeline τ) (limit : Duration) : Option (Entry τ × Timeline τ) :=
  match t.nextDue? with
  | none => none
  | some due => if due ≤ limit then t.pop? else none

/-- Moves the clock to `moment` without running anything; the clock never goes back. -/
def advanceTo (t : Timeline τ) (moment : Duration) : Timeline τ :=
  { t with now := t.now.latest moment }

end Timeline

end Sparkboard
