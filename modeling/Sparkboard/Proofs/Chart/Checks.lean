import Sparkboard.Dashboard.Draw
/-!
# What a chart can be drawn from

Labels and values can be drawn if they fill the slots and every value can be placed (`Drawable`).
Where they cannot, the first check that fails gives the reason (`Fault`): the number of the labels,
the number of the values, the first value that cannot be placed.
-/

namespace Sparkboard

variable {labels : List String} {values : List Float} {texts : LabelSet} {series : Series}
  {e : ChartError}

/-- A value can be placed if it is finite and not negative. -/
theorem isPlottable_iff {v : Float} : isPlottable v = true ↔ v.isFinite = true ∧ ¬v < 0.0 := by
  simp [isPlottable]

/-- What is reported is the first value that cannot be placed, with its slot. -/
theorem firstUnplottable?_eq_some_iff {v : Float} {slot : Nat} :
    firstUnplottable? values = some (v, slot) ↔
      values[slot]? = some v ∧ isPlottable v = false ∧
        ∀ i < slot, ∀ w, values[i]? = some w → isPlottable w = true := by
  simp only [firstUnplottable?, List.find?_eq_some_iff_getElem, Bool.not_eq_true',
    List.length_zipIdx, List.getElem_zipIdx, Nat.zero_add]
  constructor
  · intro h
    obtain ⟨hbad, i, hi, heq, hfirst⟩ := h
    obtain ⟨rfl, rfl⟩ := Prod.mk.inj heq
    refine ⟨List.getElem?_eq_getElem hi, hbad, fun j hj w hw => ?_⟩
    have hplaced := hfirst j hj
    rw [List.getElem?_eq_getElem (by omega), Option.some.injEq] at hw
    simpa [hw] using hplaced
  · intro h
    obtain ⟨hv, hbad, hfirst⟩ := h
    obtain ⟨hi, rfl⟩ := List.getElem?_eq_some_iff.1 hv
    refine ⟨hbad, slot, hi, rfl, fun j hj => ?_⟩
    have hplaced := hfirst j hj values[j] (List.getElem?_eq_getElem (by omega))
    simpa using hplaced

/-- Can a chart be drawn from these labels and values? -/
structure Drawable (labels : List String) (values : List Float) : Prop where
  length_labels : labels.length = 4
  length_values : values.length = 4
  placed : ∀ v ∈ values, v.isFinite = true ∧ ¬v < 0.0

/-- The first reason why no chart can be drawn from these labels and values. -/
inductive Fault (labels : List String) (values : List Float) : ChartError → Prop where
  | labels (hl : labels.length ≠ 4) : Fault labels values (.wrongCount .labelSet labels.length)
  | values (hl : labels.length = 4) (hv : values.length ≠ 4) :
    Fault labels values (.wrongCount .series values.length)
  | value {slot : Nat} {v : Float} (hl : labels.length = 4) (hv : values.length = 4)
    (hs : values[slot]? = some v) (hbad : ¬(v.isFinite = true ∧ ¬v < 0.0))
    (hfirst : ∀ i < slot, ∀ w, values[i]? = some w → w.isFinite = true ∧ ¬w < 0.0) :
    Fault labels values (.unplottable slot v)

/-! ## The two checks -/

theorem ofList_labelSet_eq_error_iff :
    LabelSet.ofList labels = .error e ↔
      labels.length ≠ 4 ∧ e = .wrongCount .labelSet labels.length := by
  have hslots := Slots.ofList?_isSome_iff (l := labels)
  unfold LabelSet.ofList
  cases hs : Slots.ofList? labels with
  | none => simp_all [Slots.count, eq_comm]
  | some slots => simp_all [Slots.count]

theorem ofList_labelSet_eq_ok_iff : LabelSet.ofList labels = .ok texts ↔ texts.toList = labels := by
  rw [← Slots.ofList?_eq_some_iff]
  unfold LabelSet.ofList
  cases Slots.ofList? labels <;> simp

theorem exists_ofList_labelSet_iff :
    (∃ texts, LabelSet.ofList labels = .ok texts) ↔ labels.length = 4 := by
  have hslots := Slots.ofList?_isSome_iff (l := labels)
  simp only [ofList_labelSet_eq_ok_iff, ← Slots.ofList?_eq_some_iff]
  rw [← Option.isSome_iff_exists, hslots]
  rfl

theorem toList_of_series (h : Series.ofList values = .ok series) :
    series.values.toList = values := by
  unfold Series.ofList at h
  cases hs : Slots.ofList? values with
  | none => simp [hs] at h
  | some slots =>
    simp only [hs] at h
    split at h
    · cases h
    · cases h
      exact Slots.ofList?_eq_some_iff.1 hs

theorem exists_ofList_series_iff :
    (∃ series, Series.ofList values = .ok series) ↔
      values.length = 4 ∧ ∀ v ∈ values, v.isFinite = true ∧ ¬v < 0.0 := by
  constructor
  · intro hex
    obtain ⟨series, h⟩ := hex
    have hlist := toList_of_series h
    refine ⟨by rw [← hlist]; rfl, fun v hv => ?_⟩
    rw [← hlist] at hv
    exact isPlottable_iff.1 (series.plottable v hv)
  · intro h
    obtain ⟨hl, hplaced⟩ := h
    obtain ⟨slots, hs⟩ := Option.isSome_iff_exists.1 (Slots.ofList?_isSome_iff.2 hl)
    have hlist := Slots.ofList?_eq_some_iff.1 hs
    have hnone : firstUnplottable? slots.toList = none := by
      rw [firstUnplottable?_eq_none_iff, hlist]
      exact fun v hv => isPlottable_iff.2 (hplaced v hv)
    unfold Series.ofList
    simp only [hs]
    split
    · simp_all
    · exact ⟨_, rfl⟩

theorem ofList_series_eq_error_iff :
    Series.ofList values = .error e ↔
      (values.length ≠ 4 ∧ e = .wrongCount .series values.length) ∨
        values.length = 4 ∧ ∃ slot v, values[slot]? = some v ∧ ¬(v.isFinite = true ∧ ¬v < 0.0) ∧
          (∀ i < slot, ∀ w, values[i]? = some w → w.isFinite = true ∧ ¬w < 0.0) ∧
          e = .unplottable slot v := by
  have hslots := Slots.ofList?_isSome_iff (l := values)
  cases hs : Slots.ofList? values with
  | none =>
    have hl : values.length ≠ 4 := by simpa [hs, Slots.count] using hslots
    have herror : Series.ofList values = .error (.wrongCount .series values.length) := by
      unfold Series.ofList
      simp only [hs]
    rw [herror]
    simp only [Except.error.injEq, hl, ne_eq, not_false_eq_true, true_and, false_and, or_false]
    exact eq_comm
  | some slots =>
    have hl : values.length = 4 := by simpa [hs, Slots.count] using hslots
    have hlist := Slots.ofList?_eq_some_iff.1 hs
    simp only [hl, ne_eq, not_true_eq_false, false_and, false_or, true_and, ← isPlottable_iff,
      Bool.not_eq_true]
    unfold Series.ofList
    simp only [hs]
    split
    · next v slot hfirst =>
      rw [hlist, firstUnplottable?_eq_some_iff] at hfirst
      obtain ⟨hv, hbad, hbefore⟩ := hfirst
      constructor
      · intro h
        cases h
        exact ⟨slot, v, hv, hbad, hbefore, rfl⟩
      · intro hex
        obtain ⟨i, w, hw, hw', hbefore', rfl⟩ := hex
        -- two first values that cannot be placed stand in one slot
        have hle : slot ≤ i := Nat.le_of_not_lt fun hlt => by simp [hbefore i hlt w hw] at hw'
        have hge : i ≤ slot := Nat.le_of_not_lt fun hlt => by simp [hbefore' slot hlt v hv] at hbad
        obtain rfl : slot = i := Nat.le_antisymm hle hge
        rw [hv, Option.some.injEq] at hw
        rw [hw]
    · next hnone =>
      rw [hlist, firstUnplottable?_eq_none_iff] at hnone
      simp only [reduceCtorEq, false_iff, not_exists, not_and]
      intro i w hw hbad
      simp [hnone w (List.mem_of_getElem? hw)] at hbad

/-! ## Both checks -/

theorem drawable_iff :
    Drawable labels values ↔
      (∃ texts, LabelSet.ofList labels = .ok texts) ∧
        ∃ series, Series.ofList values = .ok series := by
  rw [exists_ofList_labelSet_iff, exists_ofList_series_iff]
  exact ⟨fun h => ⟨h.length_labels, h.length_values, h.placed⟩, fun h => ⟨h.1, h.2.1, h.2.2⟩⟩

/-- The first check that fails answers the first reason. -/
theorem fault_iff :
    Fault labels values e ↔
      LabelSet.ofList labels = .error e ∨
        (∃ texts, LabelSet.ofList labels = .ok texts) ∧ Series.ofList values = .error e := by
  rw [exists_ofList_labelSet_iff, ofList_labelSet_eq_error_iff, ofList_series_eq_error_iff]
  constructor
  · intro h
    cases h with
    | labels hl => exact .inl ⟨hl, rfl⟩
    | values hl hv => exact .inr ⟨hl, .inl ⟨hv, rfl⟩⟩
    | value hl hv hs hbad hfirst => exact .inr ⟨hl, .inr ⟨hv, _, _, hs, hbad, hfirst, rfl⟩⟩
  · intro h
    obtain ⟨hl, rfl⟩ | ⟨hl, ⟨hv, rfl⟩ | ⟨hv, slot, v, hs, hbad, hfirst, rfl⟩⟩ := h
    · exact .labels hl
    · exact .values hl hv
    · exact .value hl hv hs hbad hfirst

/-- Labels and values can be drawn, or there is a reason why not. -/
theorem drawable_or_fault (labels : List String) (values : List Float) :
    Drawable labels values ∨ ∃ e, Fault labels values e := by
  simp only [drawable_iff, fault_iff]
  cases LabelSet.ofList labels <;> cases Series.ofList values <;> simp

end Sparkboard
