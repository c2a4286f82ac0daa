/-!
# Tables

A table holds at most one value for each key and lists them in the order of the keys.  It is a plain
list of pairs: the boards it holds are small, and what a look-up finds after an insertion or a
removal is plain from the list.
-/

namespace Sparkboard

/-- Values by key, in the order of the keys. -/
structure Table (κ α : Type) where
  entries : List (κ × α)
  deriving DecidableEq, Repr

namespace Table

variable {κ α : Type}

def empty : Table κ α := ⟨[]⟩

instance : Inhabited (Table κ α) := ⟨empty⟩

def keys (t : Table κ α) : List κ :=
  t.entries.map Prod.fst

section

variable [DecidableEq κ]

def lookupIn (k : κ) : List (κ × α) → Option α
  | [] => none
  | (k', v) :: rest => if k = k' then some v else lookupIn k rest

def get? (t : Table κ α) (k : κ) : Option α :=
  lookupIn k t.entries

def erase (t : Table κ α) (k : κ) : Table κ α :=
  ⟨t.entries.filter fun e => e.1 ≠ k⟩

variable [LT κ] [DecidableLT κ]

/-- Puts an entry in front of the first one with a larger key, or in place of its own key's. -/
def insertIn (k : κ) (v : α) : List (κ × α) → List (κ × α)
  | [] => [(k, v)]
  | (k', v') :: rest =>
    if k = k' then (k, v) :: rest
    else if k < k' then (k, v) :: (k', v') :: rest
    else (k', v') :: insertIn k v rest

/-- The table with `v` for the key `k`. -/
def insert (t : Table κ α) (k : κ) (v : α) : Table κ α :=
  ⟨insertIn k v t.entries⟩

end

section

variable [DecidableEq κ]

@[simp]
theorem get?_empty (k : κ) : (empty : Table κ α).get? k = none := rfl

/-- A table in which no key has a value has no entries. -/
theorem eq_empty_of_get? {t : Table κ α} (h : ∀ k, t.get? k = none) : t = empty := by
  obtain ⟨entries⟩ := t
  cases entries with
  | nil => rfl
  | cons e rest =>
    have hfirst := h e.1
    simp [get?, lookupIn] at hfirst

theorem lookupIn_filter (k j : κ) (es : List (κ × α)) :
    lookupIn j (es.filter fun e => e.1 ≠ k) = if j = k then none else lookupIn j es := by
  induction es with
  | nil => simp [lookupIn]
  | cons e es ih =>
    obtain ⟨k', v⟩ := e
    by_cases hk : k' = k
    · by_cases hj : j = k <;> simp_all [lookupIn]
    · by_cases hj : j = k' <;> simp_all [lookupIn]

/-- Removing a key leaves the other keys alone. -/
@[simp]
theorem get?_erase (t : Table κ α) (k j : κ) :
    (t.erase k).get? j = if j = k then none else t.get? j :=
  lookupIn_filter k j t.entries

variable [LT κ] [DecidableLT κ]

theorem lookupIn_insertIn (k j : κ) (v : α) (es : List (κ × α)) :
    lookupIn j (insertIn k v es) = if j = k then some v else lookupIn j es := by
  induction es with
  | nil => simp [insertIn, lookupIn]
  | cons e es ih =>
    obtain ⟨k', v'⟩ := e
    unfold insertIn
    split
    · next h => subst h; by_cases hj : j = k <;> simp [lookupIn, hj]
    · split
      · simp [lookupIn]
      · next h _ =>
        by_cases hj : j = k'
        · subst hj
          simp [lookupIn, Ne.symm h]
        · simp [lookupIn, hj, ih]

/-- An insertion is seen under its own key and nowhere else. -/
@[simp]
theorem get?_insert (t : Table κ α) (k j : κ) (v : α) :
    (t.insert k v).get? j = if j = k then some v else t.get? j :=
  lookupIn_insertIn k j v t.entries

end

end Table

end Sparkboard
