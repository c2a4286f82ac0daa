import Sparkboard.Chart.Codec
import Sparkboard.Proofs.Json.Reading
/-!
# Checked arrays

A series and a label set are read as arrays and then checked.  So an array of strings is read as a
label set exactly if its strings make one (`parse_strings`), and an array of numbers as a series
exactly if the floats that its numbers are read as do (`parse_numerals`), however the arrays are
spelled.
-/

namespace Sparkboard

namespace Json

def Items.ofNodes : List Node → Items
  | [] => .close
  | node :: nodes => .item node (ofNodes nodes)

variable {α β : Type} {a : α} {b : β} {r : Reader α} {source : Source}

/-- A checked value is one that was read and passed the check. -/
theorem refine_eq_ok {check : α → Except String β} {node : Node} :
    Reader.refine r check source node = .ok b ↔ ∃ a, r source node = .ok a ∧ check a = .ok b := by
  unfold Reader.refine
  cases hread : r source node with
  | error e => simp [bind, Except.bind]
  | ok a =>
    cases hcheck : check a <;>
      simp [bind, Except.bind, pure, Except.pure, hcheck, throw, throwThe, MonadExceptOf.throw]

theorem Reads.refine {v : Json} {check : α → Except String β} (h : Reads r v a)
    (hcheck : check a = .ok b) : Reads (Reader.refine r check) v b :=
  fun source => refine_eq_ok.2 ⟨a, h source, hcheck⟩

theorem items_strings (labels : List String) :
    Reader.items Reader.string source (Items.ofNodes (labels.map .string)) = .ok labels := by
  induction labels with
  | nil => rfl
  | cons l labels ih =>
    simp [Items.ofNodes, Reader.items, Reader.string, ih, bind, Except.bind, pure, Except.pure]

/-- Numerals are read one by one, and none of them may be too large. -/
theorem items_numerals {ns : List Numeral} {xs : List Float} :
    Reader.items Reader.float source (Items.ofNodes (ns.map Numeral.node)) = .ok xs ↔
      ns.map Numeral.float? = xs.map some := by
  induction ns generalizing xs with
  | nil => cases xs <;> simp [Items.ofNodes, Reader.items]
  | cons n ns ih =>
    simp only [List.map_cons, Items.ofNodes, Reader.items, float_node]
    cases n.float? with
    | none => cases xs <;> simp [bind, Except.bind]
    | some x =>
      cases xs with
      | nil =>
        cases Reader.items Reader.float source (Items.ofNodes (ns.map Numeral.node)) <;>
          simp [bind, Except.bind, pure, Except.pure]
      | cons y ys =>
        rw [List.map_cons, List.cons.injEq, ← ih, Option.some.injEq]
        cases Reader.items Reader.float source (Items.ofNodes (ns.map Numeral.node)) <;>
          simp [bind, Except.bind, pure, Except.pure]

end Json

open Json (Reads Node Items SpellsDocument parse)

/-! ## Label sets -/

theorem LabelSet.reads (l : LabelSet) : Reads reader l.toJson l :=
  (Json.reads_list fun s _ => Json.reads_string s).refine rfl

/-- A text that is an array of strings is read as a label set exactly if its strings are one. -/
theorem LabelSet.parse_strings {s : String} {labels : List String} {l : LabelSet}
    (h : SpellsDocument s.toList (.array (.ofNodes (labels.map .string)))) :
    parse reader s = .ok l ↔ ofList labels = .ok l := by
  have hlabels : Json.Reader.list .string .text (.array (.ofNodes (labels.map .string))) =
      .ok labels := Json.items_strings labels
  rw [Json.parse_spells h, reader, Json.refine_eq_ok]
  simp only [hlabels, Except.ok.injEq, exists_eq_left']
  cases ofList labels <;> simp

/-! ## Series -/

theorem Series.ofList_values (s : Series) : ofList s.values.toList = .ok s := by
  have hslots : Slots.ofList? s.values.toList = some s.values := rfl
  have hplottable := firstUnplottable?_eq_none_iff.2 s.plottable
  unfold ofList
  rw [hslots]
  dsimp only
  split
  · next heq =>
    rw [hplottable] at heq
    cases heq
  · rfl

theorem Series.reads {s : Series} (h : ∀ x ∈ s.values.toList, x.isFinite = true)
    (hback : ∀ x ∈ s.values.toList, Json.ReadsBack x) : Reads reader s.toJson s :=
  (Json.reads_list fun x hx => Json.reads_float (h x hx) (hback x hx)).refine
    (by rw [ofList_values])

/-- A text that is an array of numbers is read as a series exactly if each of the numbers is read as
a float and these floats are one. -/
theorem Series.parse_numerals {t : String} {ns : List Numeral} {s : Series}
    (h : SpellsDocument t.toList (.array (.ofNodes (ns.map Numeral.node)))) :
    parse reader t = .ok s ↔ ∃ xs, ns.map Numeral.float? = xs.map some ∧ ofList xs = .ok s := by
  rw [Json.parse_spells h, reader, Json.refine_eq_ok]
  refine exists_congr fun xs => and_congr Json.items_numerals ?_
  cases ofList xs <;> simp

end Sparkboard
