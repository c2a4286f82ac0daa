/-!
# The viewport

Every chart is drawn on the same small viewport: four slots from left to right, larger values
further up.  Coordinates grow to the right and downward.
-/

namespace Sparkboard

/-- One thing for each slot of the viewport, from left to right. -/
structure Slots (α : Type) where
  first : α
  second : α
  third : α
  fourth : α
  deriving DecidableEq, Repr

namespace Slots

def count : Nat := 4

variable {α β γ : Type}

def toList (s : Slots α) : List α :=
  [s.first, s.second, s.third, s.fourth]

def ofList? : List α → Option (Slots α)
  | [a, b, c, d] => some ⟨a, b, c, d⟩
  | _ => none

def map (f : α → β) (s : Slots α) : Slots β :=
  ⟨f s.first, f s.second, f s.third, f s.fourth⟩

def zipWith (f : α → β → γ) (s : Slots α) (t : Slots β) : Slots γ :=
  ⟨f s.first t.first, f s.second t.second, f s.third t.third, f s.fourth t.fourth⟩

/-- A list fills the slots exactly if it lists them. -/
theorem ofList?_eq_some_iff {l : List α} {s : Slots α} : ofList? l = some s ↔ s.toList = l := by
  constructor
  · intro h
    unfold ofList? at h
    split at h
    · obtain rfl := Option.some.inj h
      rfl
    · exact absurd h (by simp)
  · rintro rfl
    rfl

theorem toList_inj {s t : Slots α} : s.toList = t.toList ↔ s = t := by
  rw [← ofList?_eq_some_iff, ofList?_eq_some_iff.2 rfl, Option.some.injEq, eq_comm]

/-- Exactly the lists of four things fill the slots. -/
theorem ofList?_isSome_iff {l : List α} : (ofList? l).isSome ↔ l.length = count := by
  match l with
  | [] | [_] | [_, _] | [_, _, _] | [_, _, _, _] | _ :: _ :: _ :: _ :: _ :: _ =>
    simp [ofList?, count]

@[simp]
theorem toList_map (f : α → β) (s : Slots α) : (s.map f).toList = s.toList.map f := rfl

end Slots

/-- A point of the viewport. -/
structure Point where
  x : Float
  y : Float
  deriving DecidableEq, Repr

namespace Viewport

/-- Where the data points stand. -/
def slotX : Slots Float := ⟨10.0, 80.0, 160.0, 230.0⟩

def labelX : Slots Float := ⟨0.0, 70.0, 140.0, 210.0⟩

def labelY : Float := 120.0

/-- The height at which the filled area is closed. -/
def baselineY : Float := 110.0

def width : Nat := 240

def height : Nat := 130

end Viewport

end Sparkboard
