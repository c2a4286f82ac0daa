import Sparkboard.Flags
import Sparkboard.Proofs.Table.Order
/-!
# What a board tells

A change puts one flag on one element or takes it off, and nothing else is different on the board
then (`has_set`, `has_clear`).  The list of the elements that carry a flag is sorted, whatever order
the store hands them out in (`pairwise_le_listed`, `listed_of_perm`); as the store has one entry for
each element, each is listed once (`mem_flagged`, `sorted_flagged`).
-/

namespace Sparkboard

namespace FlagBoard

variable {b : FlagBoard} {id flag : String}

theorem has_iff : b.has id flag = true ↔ flag ∈ b.flagsOf id :=
  List.contains_iff_mem

/-! ## One change -/

theorem flagsOf_set (b : FlagBoard) (id flag other : String) :
    (b.set id flag).flagsOf other =
      if other = id then (b.flagsOf id).insert flag else b.flagsOf other := by
  unfold set flagsOf
  rw [Table.get?_insert]
  split <;> rfl

theorem flagsOf_clear (b : FlagBoard) (id flag other : String) :
    (b.clear id flag).flagsOf other =
      if other = id then (b.flagsOf id).filter (· ≠ flag) else b.flagsOf other := by
  unfold clear flagsOf
  cases hid : b.flags.get? id with
  | none =>
    dsimp only
    split
    · next heq =>
      rw [heq, hid]
      rfl
    · rfl
  | some carried =>
    dsimp only
    rw [Table.get?_insert]
    split <;> rfl

/-- A flag that is put on an element is there, and nothing else is different. -/
@[simp]
theorem has_set (b : FlagBoard) (id flag other f : String) :
    (b.set id flag).has other f = true ↔ (other = id ∧ f = flag) ∨ b.has other f = true := by
  rw [has_iff, has_iff, flagsOf_set]
  split
  · next heq => simp [heq]
  · next hne => simp [hne]

/-- A flag that is taken off an element is not there, and nothing else is different. -/
@[simp]
theorem has_clear (b : FlagBoard) (id flag other f : String) :
    (b.clear id flag).has other f = true ↔ ¬(other = id ∧ f = flag) ∧ b.has other f = true := by
  rw [has_iff, has_iff, flagsOf_clear]
  split
  · next heq => simp [heq, and_comm]
  · next hne => simp [hne]

/-! ## Changes in turn -/

theorem applyAll_append (b : FlagBoard) (first rest : List FlagChange) :
    b.applyAll (first ++ rest) = (b.applyAll first).applyAll rest :=
  List.foldl_append ..

/-- A flag that is put on several elements. -/
theorem has_applyAll_set (b : FlagBoard) (ids : List String) (flag other f : String) :
    (b.applyAll (ids.map (.set · flag))).has other f = true ↔
      (other ∈ ids ∧ f = flag) ∨ b.has other f = true := by
  induction ids generalizing b with
  | nil => simp [applyAll]
  | cons id ids ih =>
    refine (ih (b.set id flag)).trans ?_
    rw [has_set, List.mem_cons, ← or_assoc, ← or_and_right, or_comm (a := other ∈ ids)]

/-- A flag that is taken off several elements. -/
theorem has_applyAll_clear (b : FlagBoard) (ids : List String) (flag other f : String) :
    (b.applyAll (ids.map (.clear · flag))).has other f = true ↔
      ¬(other ∈ ids ∧ f = flag) ∧ b.has other f = true := by
  induction ids generalizing b with
  | nil => simp [applyAll]
  | cons id ids ih =>
    refine (ih (b.clear id flag)).trans ?_
    rw [has_clear, ← and_assoc, ← not_or, ← or_and_right, List.mem_cons, or_comm]

/-! ## One entry for each element -/

theorem sorted_set (h : b.flags.Sorted) (id flag : String) : (b.set id flag).flags.Sorted :=
  h.insert id _

theorem sorted_clear (h : b.flags.Sorted) (id flag : String) : (b.clear id flag).flags.Sorted := by
  unfold clear
  split
  · exact h
  · exact h.insert id _

/-- Changes keep the elements in order. -/
theorem sorted_applyAll (h : b.flags.Sorted) (changes : List FlagChange) :
    (b.applyAll changes).flags.Sorted := by
  induction changes generalizing b with
  | nil => exact h
  | cons change changes ih =>
    cases change with
    | set id flag => exact ih (sorted_set h id flag)
    | clear id flag => exact ih (sorted_clear h id flag)

/-! ## Listings -/

theorem listed_perm (flag : String) (entries : List (String × List String)) :
    (listed flag entries).Perm ((entries.filter fun e => e.2.contains flag).map Prod.fst) :=
  List.mergeSort_perm _ _

/-- The sort puts the ids in order, whatever order the entries come in. -/
theorem pairwise_le_listed (flag : String) (entries : List (String × List String)) :
    (listed flag entries).Pairwise (· ≤ ·) := by
  have hsorted := @List.pairwise_mergeSort _ (fun a b : String => decide (a ≤ b))
    (by simpa using fun a b c => @String.le_trans a b c) (by simpa using String.le_total)
    ((entries.filter fun e => e.2.contains flag).map Prod.fst)
  simpa [listed] using hsorted

/-- The order of the entries makes no difference. -/
theorem listed_of_perm {entries entries' : List (String × List String)}
    (h : entries.Perm entries') (flag : String) : listed flag entries = listed flag entries' := by
  have hperm : (listed flag entries).Perm (listed flag entries') :=
    (listed_perm flag entries).trans (((h.filter _).map _).trans (listed_perm flag entries').symm)
  exact hperm.eq_of_pairwise (fun _ _ _ _ => String.le_antisymm) (pairwise_le_listed flag entries)
    (pairwise_le_listed flag entries')

/-- The elements that are listed for a flag are those that carry it. -/
theorem mem_flagged (h : b.flags.Sorted) : id ∈ b.flagged flag ↔ b.has id flag = true := by
  unfold flagged has flagsOf
  rw [(listed_perm flag b.flags.entries).mem_iff, List.mem_map]
  constructor
  · intro hex
    obtain ⟨⟨_, carried⟩, he, rfl⟩ := hex
    obtain ⟨hmem, hflag⟩ := List.mem_filter.1 he
    rw [h.get?_eq_some_iff.2 hmem]
    exact hflag
  · intro hflag
    cases hid : b.flags.get? id with
    | none =>
      rw [hid] at hflag
      cases hflag
    | some carried =>
      rw [hid] at hflag
      exact ⟨(id, carried), List.mem_filter.2 ⟨h.get?_eq_some_iff.1 hid, hflag⟩, rfl⟩

theorem nodup_flagged (h : b.flags.Sorted) (flag : String) : (b.flagged flag).Nodup :=
  (listed_perm flag b.flags.entries).nodup_iff.2
    (h.nodup_keys.sublist ((List.filter_sublist ..).map _))

theorem sorted_flagged (h : b.flags.Sorted) (flag : String) :
    (b.flagged flag).Pairwise (· < ·) :=
  (pairwise_le_listed flag b.flags.entries).imp₂ (fun _ _ hle hne => Std.lt_of_le_of_ne hle hne)
    (nodup_flagged h flag)

end FlagBoard

end Sparkboard
