import Sparkboard.Chart.Error
/-!
# Series and label sets

A series is one metric: a value for each slot, finite and not negative.  A label set is one text for
each slot.
-/

namespace Sparkboard

/-- Can the value be placed on a chart? -/
def isPlottable (v : Float) : Bool :=
  v.isFinite && !(v < 0.0)

/-- The first value that cannot be placed, with its slot. -/
def firstUnplottable? (values : List Float) : Option (Float × Nat) :=
  values.zipIdx.find? fun e => !isPlottable e.1

theorem firstUnplottable?_eq_none_iff {values : List Float} :
    firstUnplottable? values = none ↔ ∀ v ∈ values, isPlottable v = true := by
  simp only [firstUnplottable?, List.find?_eq_none, Bool.not_eq_true', Bool.not_eq_false,
    Prod.forall]
  constructor
  · intro h v hv
    obtain ⟨i, hi, rfl⟩ := List.getElem_of_mem hv
    exact h values[i] i (List.mk_mem_zipIdx_iff_getElem?.2 (List.getElem?_eq_getElem hi))
  · intro h v i hv
    exact h v (List.mem_of_getElem? (List.mk_mem_zipIdx_iff_getElem?.1 hv))

/-- One metric's values. -/
structure Series where
  values : Slots Float
  plottable : ∀ v ∈ values.toList, isPlottable v = true

/-- One text for each slot. -/
abbrev LabelSet := Slots String

/-- A series from its values.  Their number is looked at first. -/
def Series.ofList (values : List Float) : Except ChartError Series :=
  match Slots.ofList? values with
  | none => .error (.wrongCount .series values.length)
  | some slots =>
    match h : firstUnplottable? slots.toList with
    | some (value, slot) => .error (.unplottable slot value)
    | none => .ok ⟨slots, firstUnplottable?_eq_none_iff.1 h⟩

def LabelSet.ofList (labels : List String) : Except ChartError LabelSet :=
  match Slots.ofList? labels with
  | none => .error (.wrongCount .labelSet labels.length)
  | some slots => .ok slots

end Sparkboard
