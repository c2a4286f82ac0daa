import Sparkboard.Chart.Codec
import Sparkboard.Time.Instant
/-!
# Recent activity

Events are counted in windows of five minutes that start a given number of minutes ago.  An event
counts if its second lies strictly between the seconds in which the window starts and ends.
-/

namespace Sparkboard

namespace Activity

def windowMinutes : Int := 5

/-- How many minutes ago the windows of the four slots start. -/
def marks : Slots Int := ⟨30, 25, 20, 15⟩

/-- Why events cannot be counted. -/
inductive Error where
  /-- A mark is too many minutes from now to be a length of time. -/
  | markOutOfBounds
  /-- A window reaches beyond the calendar. -/
  | instantOutOfRange
  deriving DecidableEq, Repr

def Error.message : Error → String
  | markOutOfBounds => "TimeDelta::minutes out of bounds"
  | instantOutOfRange => "`DateTime - TimeDelta` overflowed"

/-- The longest length of time, in whole seconds. -/
def longestSeconds : Int := 9223372036854775

/-- The second in which a window edge lies, `mark` minutes before `now`. -/
def edge (now : Instant) (mark : Int) : Except Error Int :=
  if 60 * mark < -longestSeconds ∨ longestSeconds < 60 * mark then .error .markOutOfBounds
  else match now.secondBefore? mark with
    | some second => .ok second
    | none => .error .instantOutOfRange

/-- How many events lie strictly between two seconds. -/
def countBetween (timestamps : List Int) (start stop : Int) : Nat :=
  timestamps.countP fun t => start < t && t < stop

/-- How many events fall into the window that starts `mark` minutes before `now`. -/
def bucketCount (timestamps : List Int) (now : Instant) (mark : Int) : Except Error Nat := do
  let start ← edge now mark
  let stop ← edge now (mark - windowMinutes)
  return countBetween timestamps start stop

/-- How many events fall into each window. -/
def bucketCounts (timestamps : List Int) (now : Instant) (marks : List Int) :
    Except Error (List Nat) :=
  marks.mapM (bucketCount timestamps now)

def markLabel (mark : Int) : String :=
  String.ofList (Decimal.integer mark ++ ['m'])

/-- The labels and the values of the chart of recent activity. -/
structure Recent where
  labels : LabelSet
  series : Series

/-- Counts the events of the four windows. -/
def recent (timestamps : List Int) (now : Instant) : Except Error (Except ChartError Recent) := do
  let counts ← bucketCounts timestamps now marks.toList
  return do
    let labels ← LabelSet.ofList (marks.map markLabel).toList
    let series ← Series.ofList (counts.map Float.ofNat)
    return ⟨labels, series⟩

def Recent.toJson (r : Recent) : Json :=
  .object [("labels", LabelSet.toJson r.labels), ("series", r.series.toJson)]

end Activity

end Sparkboard
