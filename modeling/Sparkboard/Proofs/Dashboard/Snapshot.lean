import Sparkboard.Dashboard.Operation
import Sparkboard.Proofs.Chart.Codec
import Sparkboard.Proofs.Table.Order
/-!
# Snapshots read back

An object can be read as a table, each member as an entry (`Reader.table`).  The members of a
snapshot are in the order of their names, so each is appended to the entries read before it, and
nothing is replaced or moved (`reads_table`).
-/

namespace Sparkboard

/-! ## Objects as tables -/

namespace Json

variable {α : Type} {r : Reader α} {toJson : α → Json}

namespace Reader

/-- Reads the members of an object into a table.  Of several members of a name the last one counts.
-/
def entries (r : Reader α) (source : Source) :
    Members → Table String α → Except Error (Table String α)
  | .close, t => .ok t
  | .cut c, _ => .error (.fault c.read)
  | .member none _ _, _ => .error (.fault .malformed)
  | .member (some key) value rest, t => do
    let a ← r source value
    entries r source rest (t.insert key a)

/-- An object of any members, as a table. -/
def table (r : Reader α) : Reader (Table String α) := fun source node =>
  match node with
  | .object members => entries r source members .empty
  | node => .error (node.objection "a map")

end Reader

/-- The entries behind those that were read already are read in their order. -/
theorem entries_treeMembers {done rest : List (String × α)} (source : Source)
    (hsorted : ((done ++ rest).map Prod.fst).Pairwise (· < ·))
    (h : ∀ e ∈ rest, Reads r (toJson e.2) e.2) :
    Reader.entries r source (treeMembers (rest.map fun e => (e.1, toJson e.2))) ⟨done⟩ =
      .ok ⟨done ++ rest⟩ := by
  induction rest generalizing done with
  | nil => simp [treeMembers, Reader.entries]
  | cons e rest ih =>
    obtain ⟨key, a⟩ := e
    have hlast : ∀ j ∈ done.map Prod.fst, j < key := by
      intro j hj
      rw [List.map_append, List.pairwise_append] at hsorted
      exact hsorted.2.2 j hj key (by simp)
    have hinsert : Table.insert ⟨done⟩ key a = ⟨done ++ [(key, a)]⟩ := by
      rw [Table.insert, Table.insertIn_last hlast]
    have hread := h (key, a) (List.mem_cons_self ..) source
    have hrest := @ih (done ++ [(key, a)]) (by simpa using hsorted)
      fun e he => h e (List.mem_cons_of_mem _ he)
    rw [List.append_assoc, List.singleton_append] at hrest
    simp [treeMembers, Reader.entries, hread, hinsert, hrest, bind, Except.bind]

/-- A table is read back from the object of its entries. -/
theorem reads_table {t : Table String α} (hsorted : t.Sorted)
    (h : ∀ e ∈ t.entries, Reads r (toJson e.2) e.2) :
    Reads (Reader.table r) (.object (t.entries.map fun e => (e.1, toJson e.2))) t := by
  intro source
  exact entries_treeMembers source (by simpa [Table.Sorted, Table.keys] using hsorted) h

end Json

/-- The charts of a dashboard are read back from its snapshot. -/
theorem Dashboard.reads_snapshot {d : Dashboard} (hsorted : d.charts.Sorted)
    (hfloats : ∀ e ∈ d.charts.entries, ∀ x ∈ e.2.floats, x.isFinite = true)
    (hback : ∀ e ∈ d.charts.entries, ∀ x ∈ e.2.floats, Json.ReadsBack x)
    (hfits : ∀ e ∈ d.charts.entries, e.2.root.Fits) :
    Json.Reads (Json.Reader.table ChartTarget.reader) d.snapshot d.charts :=
  Json.reads_table hsorted fun e he => ChartTarget.reads (hfloats e he) (hback e he) (hfits e he)

end Sparkboard
