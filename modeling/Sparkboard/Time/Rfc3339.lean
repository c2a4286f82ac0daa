import Sparkboard.Decimal.Digits
import Sparkboard.Time.Instant
/-!
# Timestamps as text

Timestamps are written as RFC 3339 lays down: a date, a `T` or a blank, a time of day, a fraction if
there is one, and the offset from universal time.
-/

namespace Sparkboard

namespace Calendar

/-- Does the year have a 29 February? -/
def isLeapYear (year : Nat) : Bool :=
  year % 4 = 0 && (year % 100 ≠ 0 || year % 400 = 0)

def daysInMonth (year month : Nat) : Nat :=
  if month = 2 then (if isLeapYear year then 29 else 28)
  else if month = 4 || month = 6 || month = 9 || month = 11 then 30
  else 31

/-- The number of days from the beginning of the year 0 to that of `year`. -/
def daysBeforeYear (year : Nat) : Nat :=
  365 * year + (year + 3) / 4 - (year + 99) / 100 + (year + 399) / 400

def daysBeforeMonth (year month : Nat) : Nat :=
  (List.range (month - 1)).foldr (fun m days => daysInMonth year (m + 1) + days) 0

/-- The day on which 1970 begins, counted from the beginning of the year 0. -/
def epochDay : Nat := daysBeforeYear 1970

/-- A date as days since the beginning of 1970, if there is such a date. -/
def day? (year month day : Nat) : Option Int :=
  if 1 ≤ month ∧ month ≤ 12 ∧ 1 ≤ day ∧ day ≤ daysInMonth year month then
    some ((daysBeforeYear year + daysBeforeMonth year month + (day - 1) : Nat) - (epochDay : Int))
  else none

end Calendar

namespace Rfc3339

/-- Takes exactly `n` digits. -/
def takeNumber (n : Nat) (s : List Char) : Option (Nat × List Char) :=
  let ds := s.take n
  if ds.length = n ∧ ds.all Decimal.isDigit then some (Decimal.value ds, s.drop n) else none

def takeOne (allowed : List Char) : List Char → Option (List Char)
  | c :: rest => if allowed.contains c then some rest else none
  | [] => none

/-- The nanoseconds of a fraction: nine digits count, missing ones are zero. -/
def fractionNanos (digits : List Char) : Nat :=
  Decimal.value (digits.take 9) * Nat.pow 10 (9 - (digits.take 9).length)

/-- Takes a fraction, if there is one: a point and at least one digit. -/
def takeFraction : List Char → Option (Nat × List Char)
  | '.' :: rest =>
    let digits := rest.takeWhile Decimal.isDigit
    if digits.isEmpty then none else some (fractionNanos digits, rest.dropWhile Decimal.isDigit)
  | s => some (0, s)

/-- Takes an offset in minutes: `Z`, or hours and minutes behind a sign.  The minus sign may be the
hyphen or the mathematical one. -/
def takeOffset : List Char → Option (Int × List Char)
  | [] => none
  | sign :: rest =>
    if sign = 'Z' || sign = 'z' then some (0, rest)
    else if sign = '+' || sign = '-' || sign = '\u2212' then do
      let (hours, rest) ← takeNumber 2 rest
      let rest ← takeOne [':'] rest
      let (minutes, rest) ← takeNumber 2 rest
      guard (hours < 24 ∧ minutes < 60)
      let offset : Int := hours * 60 + minutes
      return (if sign = '+' then offset else -offset, rest)
    else none

/-- The moment a text names.  A sixtieth second is a leap second. -/
def parseChars (s : List Char) : Option Instant := do
  let (year, s) ← takeNumber 4 s
  let s ← takeOne ['-'] s
  let (month, s) ← takeNumber 2 s
  let s ← takeOne ['-'] s
  let (day, s) ← takeNumber 2 s
  let s ← takeOne ['T', 't', ' '] s
  let (hour, s) ← takeNumber 2 s
  let s ← takeOne [':'] s
  let (minute, s) ← takeNumber 2 s
  let s ← takeOne [':'] s
  let (second, s) ← takeNumber 2 s
  let (nanos, s) ← takeFraction s
  let (offset, s) ← takeOffset s
  guard s.isEmpty
  guard (hour < 24 ∧ minute < 60 ∧ second ≤ 60)
  let days ← Calendar.day? year month day
  let start : Int := days * 86400 + hour * 3600 + minute * 60 - offset * 60
  return if second = 60 then ⟨start + 59, nanos + 1000000000⟩ else ⟨start + second, nanos⟩

/-- The moment a text names, if it is a timestamp. -/
def parse? (s : String) : Option Instant :=
  parseChars s.toList

end Rfc3339

end Sparkboard
