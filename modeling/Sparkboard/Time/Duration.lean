/-!
# Durations

A duration is a whole number of nanoseconds up to a largest one.  Addition past the largest duration
has no result; all other operations stay in range.
-/

namespace Sparkboard

/-- A length of time, or a moment on a clock that started at zero. -/
structure Duration where
  /-- The length in nanoseconds. -/
  nanos : Nat
  nanos_lt : nanos < Nat.pow 2 64 * 1000000000
  deriving DecidableEq, Repr

namespace Duration

/-- The number of nanoseconds past the last one a duration can have: seconds fill 64 bits. -/
def bound : Nat := Nat.pow 2 64 * 1000000000

def zero : Duration := ⟨0, by decide⟩

instance : Inhabited Duration := ⟨zero⟩

instance : LE Duration := ⟨fun a b => a.nanos ≤ b.nanos⟩

instance : LT Duration := ⟨fun a b => a.nanos < b.nanos⟩

instance (a b : Duration) : Decidable (a ≤ b) := inferInstanceAs (Decidable (a.nanos ≤ b.nanos))

instance (a b : Duration) : Decidable (a < b) := inferInstanceAs (Decidable (a.nanos < b.nanos))

/-- The duration of so many nanoseconds, if there is one. -/
def ofNanos? (n : Nat) : Option Duration :=
  if h : n < bound then some ⟨n, h⟩ else none

def ofMillis (ms : UInt64) : Duration :=
  ⟨ms.toNat * 1000000, by have := ms.toNat_lt; rw [Nat.pow_eq]; omega⟩

def seconds (d : Duration) : Nat :=
  d.nanos / 1000000000

def subsecond (d : Duration) : Nat :=
  d.nanos % 1000000000

def millis (d : Duration) : Nat :=
  d.nanos / 1000000

/-- The sum, unless it is longer than the longest duration. -/
def add? (a b : Duration) : Option Duration :=
  ofNanos? (a.nanos + b.nanos)

def latest (a b : Duration) : Duration :=
  if a ≤ b then b else a

@[ext]
theorem ext {a b : Duration} (h : a.nanos = b.nanos) : a = b := by
  cases a; cases b; simp_all

theorem le_def {a b : Duration} : a ≤ b ↔ a.nanos ≤ b.nanos := Iff.rfl

theorem lt_def {a b : Duration} : a < b ↔ a.nanos < b.nanos := Iff.rfl

@[simp]
theorem nanos_ofMillis (ms : UInt64) : (ofMillis ms).nanos = ms.toNat * 1000000 := rfl

/-- A sum exists exactly if it is in range, and then it is the sum of the nanoseconds. -/
theorem add?_eq_some_iff {a b c : Duration} :
    a.add? b = some c ↔ c.nanos = a.nanos + b.nanos := by
  unfold add? ofNanos?
  split
  · simp only [Option.some.injEq]
    exact ⟨fun h => h ▸ rfl, fun h => ext h.symm⟩
  · next h =>
    simp only [reduceCtorEq, false_iff]
    intro hc
    exact h (hc ▸ c.nanos_lt)

@[simp]
theorem nanos_latest (a b : Duration) : (latest a b).nanos = max a.nanos b.nanos := by
  unfold latest
  split
  · next h => rw [le_def] at h; omega
  · next h => rw [le_def] at h; omega

end Duration

end Sparkboard
