/-!
# Instants

A moment in universal time: seconds since the beginning of 1970 and the nanoseconds beyond them.
During a leap second the nanoseconds run on past a whole second; as soon as time is taken off, the
leap second counts as the second after it.
-/

namespace Sparkboard

/-- A moment in universal time. -/
structure Instant where
  seconds : Int
  /-- Nanoseconds beyond the whole second; a thousand million or more during a leap second. -/
  nanos : Nat
  deriving DecidableEq, Repr

namespace Instant

/-- The first second of the calendar's range. -/
def earliest : Int := -8334601228800

/-- The last second of the calendar's range. -/
def latest : Int := 8210266876799

/-- Is the moment in a leap second? -/
def inLeapSecond (t : Instant) : Bool :=
  1000000000 ≤ t.nanos

/-- The second from which `minutes` are taken off. -/
def base (t : Instant) (minutes : Int) : Int :=
  if t.inLeapSecond ∧ 0 < minutes then t.seconds + 1 else t.seconds

/-- The whole second of the moment `minutes` before `t`, unless the calendar does not reach it. -/
def secondBefore? (t : Instant) (minutes : Int) : Option Int :=
  let second := t.base minutes - 60 * minutes
  if earliest ≤ second ∧ second ≤ latest then some second else none

end Instant

end Sparkboard
