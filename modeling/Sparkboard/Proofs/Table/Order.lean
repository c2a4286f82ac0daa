import Sparkboard.Table
/-!
# The order of a table

An insertion keeps the keys of a table ascending (`Sorted.insert`).  A sorted table has one entry
for each of its keys, so its entries are what look-ups find (`Sorted.get?_eq_some_iff`).
-/

namespace Sparkboard

namespace Table

variable {κ α : Type} {t : Table κ α} {k : κ} {v : α} {es : List (κ × α)}

/-- Do the keys of the table ascend? -/
def Sorted [LT κ] (t : Table κ α) : Prop := t.keys.Pairwise (· < ·)

/-- No key of a sorted table has two entries. -/
theorem Sorted.nodup_keys [LT κ] [Std.Irrefl (α := κ) (· < ·)] (h : t.Sorted) : t.keys.Nodup := by
  refine h.imp fun hlt heq => ?_
  rw [heq] at hlt
  exact Std.Irrefl.irrefl _ hlt

variable [DecidableEq κ]

/-! ## Look-ups -/

theorem mem_of_lookupIn (h : lookupIn k es = some v) : (k, v) ∈ es := by
  induction es with
  | nil => cases h
  | cons e es ih =>
    obtain ⟨k', v'⟩ := e
    unfold lookupIn at h
    split at h
    · next heq =>
      cases h
      rw [heq]
      exact List.mem_cons_self ..
    · exact List.mem_cons_of_mem _ (ih h)

/-- An entry is what a look-up finds, if no key has two. -/
theorem lookupIn_of_mem (hn : (es.map Prod.fst).Nodup) (h : (k, v) ∈ es) :
    lookupIn k es = some v := by
  induction es with
  | nil => cases h
  | cons e es ih =>
    obtain ⟨k', v'⟩ := e
    obtain ⟨hk', hes⟩ := List.nodup_cons.1 hn
    unfold lookupIn
    rcases List.mem_cons.1 h with heq | hmem
    · cases heq
      rw [if_pos rfl]
    · have hne : k ≠ k' := by
        rintro rfl
        exact hk' (List.mem_map.2 ⟨_, hmem, rfl⟩)
      rw [if_neg hne]
      exact ih hes hmem

variable [LT κ]

theorem Sorted.erase (h : t.Sorted) (k : κ) : (t.erase k).Sorted :=
  List.Pairwise.sublist (List.filter_sublist.map Prod.fst) h

/-- The entries of a sorted table are what look-ups find. -/
theorem Sorted.get?_eq_some_iff [Std.Irrefl (α := κ) (· < ·)] (h : t.Sorted) :
    t.get? k = some v ↔ (k, v) ∈ t.entries :=
  ⟨mem_of_lookupIn, lookupIn_of_mem h.nodup_keys⟩

/-- The keys of a sorted table are those that look-ups find. -/
theorem Sorted.mem_keys_iff [Std.Irrefl (α := κ) (· < ·)] (h : t.Sorted) :
    k ∈ t.keys ↔ ∃ v, t.get? k = some v := by
  unfold keys
  rw [List.mem_map]
  constructor
  · rintro ⟨⟨_, v⟩, he, rfl⟩
    exact ⟨v, h.get?_eq_some_iff.2 he⟩
  · rintro ⟨v, hv⟩
    exact ⟨(k, v), h.get?_eq_some_iff.1 hv, rfl⟩

/-! ## Insertions -/

variable [DecidableLT κ]

theorem mem_keys_insertIn {j : κ} (h : j ∈ (insertIn k v es).map Prod.fst) :
    j = k ∨ j ∈ es.map Prod.fst := by
  induction es with
  | nil => exact .inl (List.mem_singleton.1 h)
  | cons e es ih =>
    obtain ⟨k', v'⟩ := e
    unfold insertIn at h
    split at h
    · rcases List.mem_cons.1 h with rfl | h
      · exact .inl rfl
      · exact .inr (List.mem_cons_of_mem _ h)
    · split at h
      · exact List.mem_cons.1 h
      · rcases List.mem_cons.1 h with rfl | h
        · exact .inr (List.mem_cons_self ..)
        · exact (ih h).imp_right (List.mem_cons_of_mem _)

/-- What is inserted under a larger key than all others comes last. -/
theorem insertIn_last [Std.Asymm (α := κ) (· < ·)] (h : ∀ j ∈ es.map Prod.fst, j < k) :
    insertIn k v es = es ++ [(k, v)] := by
  induction es with
  | nil => rfl
  | cons e es ih =>
    obtain ⟨j, w⟩ := e
    obtain ⟨hj, hes⟩ := List.forall_mem_cons.1 h
    have hback : ¬k < j := fun hlt => Std.Asymm.asymm _ _ hlt hj
    have hne : k ≠ j := by
      rintro rfl
      exact hback hj
    rw [insertIn, if_neg hne, if_neg hback, ih hes]
    rfl

variable [Trans (α := κ) (· < ·) (· < ·) (· < ·)] [Std.Trichotomous (α := κ) (· < ·)]

theorem pairwise_insertIn (h : (es.map Prod.fst).Pairwise (· < ·)) :
    ((insertIn k v es).map Prod.fst).Pairwise (· < ·) := by
  induction es with
  | nil => exact List.pairwise_singleton _ _
  | cons e es ih =>
    obtain ⟨k', v'⟩ := e
    obtain ⟨hk', hes⟩ := List.pairwise_cons.1 h
    unfold insertIn
    split
    · next heq =>
      subst heq
      exact h
    · next hne =>
      split
      · next hlt =>
        refine List.pairwise_cons.2 ⟨fun j hj => ?_, h⟩
        rcases List.mem_cons.1 hj with rfl | hj
        · exact hlt
        · exact Trans.trans hlt (hk' j hj)
      · next hge =>
        refine List.pairwise_cons.2 ⟨fun j hj => ?_, ih hes⟩
        rcases mem_keys_insertIn hj with rfl | hj
        · exact Classical.not_not.1 fun hnot =>
            hne (Std.Trichotomous.trichotomous _ _ hge hnot)
        · exact hk' j hj

theorem Sorted.insert (h : t.Sorted) (k : κ) (v : α) : (t.insert k v).Sorted :=
  pairwise_insertIn h

end Table

end Sparkboard
