import Mathlib.Data.Finset.SymmDiff
import Mathlib.Data.List.Sort
import Sparkboard.Proofs.Flags.Board
import Sparkboard.Proofs.Text.ByteOrder
/-!
# A board as a set of pairs

Whatever is done to the flags of a board, it carries a flag on an element exactly if the pair of the
two is in the set that comes about by inserting, removing and flipping pairs in that order
(`carries_after`).  All that a board tells is told by this set, so boards that carry one set are
alike (`Carries.alike`), also where one of them keeps an element without flags that the other never
had.  So what is done to different pairs can be done in either order, and flipping a pair twice is
not noticed (`acts_as_pairs`).
-/

namespace Sparkboard

/-- What can be done to one flag of one element. -/
inductive FlagOp where
  | set (id flag : String)
  | clear (id flag : String)
  | toggle (id flag : String)
  deriving DecidableEq, Repr

namespace FlagOp

def pair : FlagOp → String × String
  | set id flag | clear id flag | toggle id flag => (id, flag)

/-- Inserts the pair, removes it, or flips it. -/
def onPairs (s : Finset (String × String)) : FlagOp → Finset (String × String)
  | set id flag => insert (id, flag) s
  | clear id flag => s.erase (id, flag)
  | toggle id flag => symmDiff s {(id, flag)}

def pairs (ops : List FlagOp) : Finset (String × String) :=
  ops.foldl onPairs ∅

/-- Is the pair there afterwards, given whether it was there before? -/
def leaves (before : Prop) : FlagOp → Prop
  | set .. => True
  | clear .. => False
  | toggle .. => ¬before

variable {p : String × String} {s : Finset (String × String)} {op a b : FlagOp} {id flag : String}

theorem mem_onPairs_self : op.pair ∈ op.onPairs s ↔ op.leaves (op.pair ∈ s) := by
  cases op <;> simp [onPairs, leaves, pair, Finset.mem_symmDiff]

/-- An operation leaves other pairs alone. -/
theorem mem_onPairs_of_ne (h : p ≠ op.pair) : p ∈ op.onPairs s ↔ p ∈ s := by
  cases op <;> simp_all [onPairs, pair, Finset.mem_symmDiff]

/-- Operations on different pairs can be done in either order. -/
theorem onPairs_comm (h : a.pair ≠ b.pair) : b.onPairs (a.onPairs s) = a.onPairs (b.onPairs s) := by
  ext p
  rcases eq_or_ne p a.pair with rfl | ha
  · rw [mem_onPairs_of_ne h, mem_onPairs_self, mem_onPairs_self, mem_onPairs_of_ne h]
  rw [mem_onPairs_of_ne ha]
  rcases eq_or_ne p b.pair with rfl | hb
  · rw [mem_onPairs_self, mem_onPairs_self, mem_onPairs_of_ne ha]
  · rw [mem_onPairs_of_ne hb, mem_onPairs_of_ne hb, mem_onPairs_of_ne ha]

theorem onPairs_toggle : onPairs s (.toggle id flag) =
    if (id, flag) ∈ s then s.erase (id, flag) else insert (id, flag) s := by
  ext p
  split <;> by_cases hp : p = (id, flag) <;> simp_all [onPairs, Finset.mem_symmDiff]

theorem onPairs_toggle_toggle : onPairs (onPairs s (.toggle id flag)) (.toggle id flag) = s :=
  symmDiff_symmDiff_cancel_right _ _

end FlagOp

namespace FlagBoard

variable {b b' : FlagBoard} {s : Finset (String × String)} {id flag : String}

/-- Does an operation; `toggle` tells its answer. -/
def perform (b : FlagBoard) : FlagOp → FlagBoard
  | .set id flag => b.set id flag
  | .clear id flag => b.clear id flag
  | .toggle id flag => (b.toggle id flag).2

def after (ops : List FlagOp) : FlagBoard :=
  ops.foldl perform empty

/-- Does everything that the boards can be asked have one answer? -/
structure Alike (b b' : FlagBoard) : Prop where
  has : ∀ id flag, b.has id flag = b'.has id flag
  flagged : ∀ flag, b.flagged flag = b'.flagged flag

/-- Are the pairs of the set those of an element and a flag that it carries? -/
structure Carries (b : FlagBoard) (s : Finset (String × String)) : Prop where
  sorted : b.flags.Sorted
  has : ∀ id flag, b.has id flag = true ↔ (id, flag) ∈ s

/-! ## From operation to operation -/

/-- Flipping a flag tells whether it is set then. -/
theorem toggle_fst (b : FlagBoard) (id flag : String) :
    (b.toggle id flag).1 = (b.toggle id flag).2.has id flag := by
  unfold toggle
  split
  · exact (Bool.eq_false_iff.2 fun h => ((has_clear ..).1 h).1 ⟨rfl, rfl⟩).symm
  · exact ((has_set ..).2 (.inl ⟨rfl, rfl⟩)).symm

theorem carries_empty : empty.Carries ∅ where
  sorted := .nil
  has id flag := by simp [has, flagsOf, empty, Table.get?, Table.empty, Table.lookupIn]

theorem Carries.set (h : b.Carries s) (id flag : String) :
    (b.set id flag).Carries (insert (id, flag) s) where
  sorted := sorted_set h.sorted id flag
  has other f := by rw [has_set, h.has, Finset.mem_insert, Prod.mk.injEq]

theorem Carries.clear (h : b.Carries s) (id flag : String) :
    (b.clear id flag).Carries (s.erase (id, flag)) where
  sorted := sorted_clear h.sorted id flag
  has other f := by rw [has_clear, h.has, Finset.mem_erase, Ne, Prod.mk.injEq]

theorem Carries.perform (h : b.Carries s) (op : FlagOp) :
    (b.perform op).Carries (op.onPairs s) := by
  cases op with
  | set id flag => exact h.set id flag
  | clear id flag => exact h.clear id flag
  | toggle id flag =>
    show (b.toggle id flag).2.Carries (FlagOp.onPairs s (.toggle id flag))
    rw [FlagOp.onPairs_toggle, toggle]
    by_cases hp : (id, flag) ∈ s
    · rw [if_pos hp, if_pos ((h.has id flag).2 hp)]
      exact h.clear id flag
    · rw [if_neg hp, if_neg fun hhas => hp ((h.has id flag).1 hhas)]
      exact h.set id flag

theorem Carries.performAll (h : b.Carries s) (ops : List FlagOp) :
    (ops.foldl FlagBoard.perform b).Carries (ops.foldl FlagOp.onPairs s) := by
  induction ops generalizing b s with
  | nil => exact h
  | cons op ops ih => exact ih (h.perform op)

theorem carries_after (ops : List FlagOp) : (after ops).Carries (FlagOp.pairs ops) :=
  carries_empty.performAll ops

/-! ## What a board tells -/

theorem Carries.mem_flagged (h : b.Carries s) : id ∈ b.flagged flag ↔ (id, flag) ∈ s :=
  (FlagBoard.mem_flagged h.sorted).trans (h.has id flag)

theorem Carries.alike (h : b.Carries s) (h' : b'.Carries s) : b.Alike b' where
  has id flag := Bool.eq_iff_iff.2 ((h.has id flag).trans (h'.has id flag).symm)
  flagged flag :=
    (sorted_flagged h.sorted flag).eq_of_mem_iff (sorted_flagged h'.sorted flag) fun _ =>
      h.mem_flagged.trans h'.mem_flagged.symm

theorem alike_of_pairs {ops ops' : List FlagOp} (h : FlagOp.pairs ops = FlagOp.pairs ops') :
    (after ops).Alike (after ops') := by
  have hcarries := carries_after ops
  rw [h] at hcarries
  exact hcarries.alike (carries_after ops')

/-- An element that was never flagged is kept, without flags, when a flag of it is flipped twice. -/
theorem get?_toggle_toggle (h : b.flags.get? id = none) (flag : String) :
    ((b.perform (.toggle id flag)).perform (.toggle id flag)).flags.get? id = some [] := by
  have hbare : b.flagsOf id = [] := by
    unfold flagsOf
    rw [h]
    rfl
  have hset : b.perform (.toggle id flag) = b.set id flag := by
    show (b.toggle id flag).2 = b.set id flag
    unfold toggle has
    rw [hbare]
    rfl
  have hflags : (b.set id flag).flags.get? id = some [flag] := by
    show (b.flags.insert id _).get? id = _
    rw [Table.get?_insert, if_pos rfl, hbare]
    rfl
  have hclear : (b.set id flag).perform (.toggle id flag) = (b.set id flag).clear id flag := by
    show ((b.set id flag).toggle id flag).2 = _
    unfold toggle
    rw [if_pos ((has_set ..).2 (.inl ⟨rfl, rfl⟩))]
  rw [hset, hclear]
  unfold clear
  rw [hflags]
  show ((b.set id flag).flags.insert id _).get? id = _
  rw [Table.get?_insert, if_pos rfl, List.filter_singleton]
  simp

/-- A board acts as a set of pairs: it tells of each pair whether it is in the set, flipping a pair
tells whether it is in the set then, and the elements listed for a flag are those paired with it, in
the order of their bytes and each of them once, whatever order the store hands its entries out in.
Operations on different pairs can be done in either order, and a pair can be flipped twice, without
any difference to be seen later; but then an element that was never flagged is kept without flags.
-/
theorem acts_as_pairs (ops : List FlagOp) :
    (∀ id flag, (after ops).has id flag = true ↔ (id, flag) ∈ FlagOp.pairs ops) ∧
    (∀ id flag, ((after ops).toggle id flag).1 = true ↔
      (id, flag) ∈ FlagOp.pairs (ops ++ [.toggle id flag])) ∧
    (∀ flag stored, stored.Perm (after ops).flags.entries →
      listed flag stored = (after ops).flagged flag ∧
      (listed flag stored).Pairwise (fun x y => Utf8.encode x < Utf8.encode y) ∧
      ∀ id, id ∈ listed flag stored ↔ (id, flag) ∈ FlagOp.pairs ops) ∧
    (∀ (a b : FlagOp) (later : List FlagOp), a.pair ≠ b.pair →
      (after (ops ++ a :: b :: later)).Alike (after (ops ++ b :: a :: later))) ∧
    (∀ (id flag : String) (later : List FlagOp),
      (after (ops ++ .toggle id flag :: .toggle id flag :: later)).Alike (after (ops ++ later))) ∧
    ∀ id flag, (after ops).flags.get? id = none →
      (after (ops ++ [.toggle id flag, .toggle id flag])).flags.get? id = some [] := by
  have hcarries := carries_after ops
  refine ⟨hcarries.has, fun id flag => ?_, fun flag stored hstored => ?_, fun a b later hne => ?_,
    fun id flag later => ?_, fun id flag hnone => ?_⟩
  · rw [toggle_fst, FlagOp.pairs, List.foldl_append]
    exact (hcarries.perform (.toggle id flag)).has id flag
  · have hlisted : listed flag stored = (after ops).flagged flag := listed_of_perm hstored flag
    rw [hlisted]
    exact ⟨rfl, (sorted_flagged hcarries.sorted flag).imp Utf8.encode_lt_encode,
      fun id => hcarries.mem_flagged⟩
  · refine alike_of_pairs ?_
    unfold FlagOp.pairs
    simp only [List.foldl_append, List.foldl_cons, FlagOp.onPairs_comm hne]
  · refine alike_of_pairs ?_
    unfold FlagOp.pairs
    simp only [List.foldl_append, List.foldl_cons, FlagOp.onPairs_toggle_toggle]
  · unfold after
    rw [List.foldl_append]
    exact get?_toggle_toggle hnone flag

/-- The second operation can be done first, and then the flag of the sidebar is still set.  A store
that hands out its two entries in the other order lists the same ids. -/
theorem acts_as_pairs_sidebar :
    (FlagOp.pair (.toggle "sidebar" "open") ≠ FlagOp.pair (.clear "loader" "show") ∧
      (after [.set "loader" "show", .toggle "sidebar" "open", .clear "loader" "show"]).Alike
        (after [.set "loader" "show", .clear "loader" "show", .toggle "sidebar" "open"])) ∧
    [("sidebar", ["show"]), ("loader", ["show"])].Perm
        (after [.set "loader" "show", .set "sidebar" "show"]).flags.entries ∧
      listed "show" [("sidebar", ["show"]), ("loader", ["show"])] =
        (after [.set "loader" "show", .set "sidebar" "show"]).flagged "show" ∧
      (after [.set "loader" "show", .set "sidebar" "show"]).flagged "show" =
        ["loader", "sidebar"] := by
  have hne : FlagOp.pair (.toggle "sidebar" "open") ≠ FlagOp.pair (.clear "loader" "show") := by
    decide
  have hswap : [("sidebar", ["show"]), ("loader", ["show"])].Perm
      (after [.set "loader" "show", .set "sidebar" "show"]).flags.entries := .swap ..
  obtain ⟨-, -, -, hcomm, -⟩ := acts_as_pairs [.set "loader" "show"]
  obtain ⟨-, -, hlisted, -⟩ := acts_as_pairs [.set "loader" "show", .set "sidebar" "show"]
  exact ⟨⟨hne, hcomm _ _ [] hne⟩, hswap, (hlisted "show" _ hswap).1,
    List.mergeSort_of_pairwise (by decide)⟩

end FlagBoard

end Sparkboard
