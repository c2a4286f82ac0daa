import Sparkboard.Proofs.Json.Writing
/-!
# Reading back what was written

A reader reads a value back if it takes it out of the tree of its written form (`Reads`).  Readers
that are built from others read back what is built in the same way from what the others read back:
an array from its items, a record from its members, one at a time (`members_fill`).
-/

namespace Sparkboard

namespace Json

/-- Does the reader take `a` out of the tree of a written value? -/
def Reads {α : Type} (r : Reader α) (v : Json) (a : α) : Prop :=
  ∀ source, r source v.tree = .ok a

variable {α β σ : Type} {r : Reader α} {v : Json} {a : α}

/-- Is `a` read out of both texts of a written value? -/
structure RoundTrips {α : Type} (r : Reader α) (v : Json) (a : α) : Prop where
  compact : parse r v.compact = .ok a
  pretty : parse r v.pretty = .ok a

theorem Reads.roundTrips (h : Reads r v a) : RoundTrips r v a where
  compact := by rw [parse_compact, h]
  pretty := by rw [parse_pretty, h]

/-! ## Single values -/

theorem reads_string (s : String) : Reads Reader.string (.string s) s := fun _ => rfl

theorem reads_bool (b : Bool) : Reads Reader.bool (.bool b) b := fun _ => rfl

/-- A whole number below its limit, which 64 bits can hold. -/
theorem reads_natural {n limit : Nat} (h : n < limit) (hlimit : limit ≤ Nat.pow 2 64)
    (title : String) : Reads (Reader.natural limit title) (.integer n) n := by
  intro source
  have htree : (Json.integer n).tree = .integer n := by
    rw [tree]
    refine node_ofInt (by omega) ?_
    rw [Nat.pow_eq] at hlimit
    omega
  rw [htree]
  simp [Reader.natural, h]

theorem reads_word32 {n : Nat} (h : n < 2 ^ 32) : Reads Reader.word32 (.integer n) n :=
  reads_natural h (by decide) "u32"

theorem reads_word64 {n : Nat} (h : n < 2 ^ 64) : Reads Reader.word64 (.integer n) n :=
  reads_natural h (by decide) "u64"

/-- What is assumed of a float that is written: if it is finite, its decimal is read as it.  Not all
decimals are read as the float nearest to them, so this is not so for every float. -/
def ReadsBack (x : Float) : Prop :=
  x.isFinite = true → parse Reader.float (Json.float x).compact = .ok x

theorem reads_float {x : Float} (h : x.isFinite = true) (hback : ReadsBack x) :
    Reads Reader.float (.float x) x := by
  intro source
  have hread := hback h
  rw [parse_compact] at hread
  exact hread

theorem reads_variant {choices : List (String × α)} {name : String}
    (h : choices.lookup name = some a) : Reads (Reader.variant choices) (.string name) a := by
  intro source
  unfold Reader.variant
  cases source with
  | text => simp [tree, Reader.choose, h]
  | value => simp [tree, Reader.choose, h]

/-- Nothing is written as `null`, which nothing else is written as. -/
theorem reads_optional {o : Option α} {toJson : α → Json} (h : ∀ a ∈ o, Reads r (toJson a) a)
    (hnull : ∀ a ∈ o, (toJson a).tree ≠ .null) :
    Reads (Reader.optional r) ((o.map toJson).getD .null) o := by
  intro source
  cases o with
  | none => rfl
  | some a =>
    have hread := h a rfl source
    have hnode := hnull a rfl
    simp only [Option.map_some, Option.getD_some]
    unfold Reader.optional
    split
    · next heq => exact absurd heq hnode
    · rw [hread]
      rfl

/-! ## Lists -/

theorem items_treeItems {toJson : α → Json} {as : List α} (source : Source)
    (h : ∀ a ∈ as, Reads r (toJson a) a) :
    Reader.items r source (treeItems (as.map toJson)) = .ok as := by
  induction as with
  | nil => rfl
  | cons a as ih =>
    have ha := h a (List.mem_cons_self ..) source
    have has := ih fun x hx => h x (List.mem_cons_of_mem a hx)
    simp [treeItems, Reader.items, ha, has, bind, Except.bind, pure, Except.pure]

/-- A list is read back item by item. -/
theorem reads_list {toJson : α → Json} {as : List α} (h : ∀ a ∈ as, Reads r (toJson a) a) :
    Reads (Reader.list r) (.array (as.map toJson)) as := fun source => items_treeItems source h

/-! ## Records -/

variable {shape : Reader.Shape σ β}

/-- A member in front is read into the slot of its name, if that is not filled yet. -/
theorem members_member {name : String} {get : σ → Option α} {set : α → σ → σ} {s : σ} {node : Node}
    {source : Source}
    (hslot : shape.slots.find? (fun slot => slot.name == name) = some (.of name r get set))
    (hfree : get s = none) (hread : r source node = .ok a) (rest : Members) :
    Reader.members shape source (.member (some name) node rest) s =
      Reader.members shape source rest (set a s) := by
  simp [Reader.members, hslot, Reader.Slot.of, hfree, hread, bind, Except.bind, Except.map]

theorem members_fill {name : String} {get : σ → Option α} {set : α → σ → σ} {s : σ}
    (hslot : shape.slots.find? (fun slot => slot.name == name) = some (.of name r get set))
    (hfree : get s = none) (hread : Reads r v a) (source : Source) (ms : List (String × Json)) :
    Reader.members shape source (treeMembers ((name, v) :: ms)) s =
      Reader.members shape source (treeMembers ms) (set a s) := by
  rw [treeMembers, members_member hslot hfree (hread source)]

theorem members_eq_ok {name : String} {get : σ → Option α} {set : α → σ → σ} {s s' : σ}
    {node : Node} {source : Source} {rest : Members}
    (hslot : shape.slots.find? (fun slot => slot.name == name) = some (.of name r get set))
    (hfree : get s = none) :
    Reader.members shape source (.member (some name) node rest) s = .ok s' ↔
      ∃ a, r source node = .ok a ∧ Reader.members shape source rest (set a s) = .ok s' := by
  cases hread : r source node <;>
    simp [Reader.members, hslot, Reader.Slot.of, hfree, hread, bind, Except.bind, Except.map]

/-- A record is read from an object exactly if the members fill it. -/
theorem record_eq_ok {members : Members} {b : β} {source : Source} :
    Reader.record shape source (.object members) = .ok b ↔
      ∃ s, Reader.members shape source members shape.start = .ok s ∧ shape.finish s = .ok b := by
  cases hmembers : Reader.members shape source members shape.start <;>
    simp [Reader.record, hmembers, bind, Except.bind]

theorem reads_record {ms : List (String × Json)} {s : σ} {b : β}
    (hmembers : ∀ source, Reader.members shape source (treeMembers ms) shape.start = .ok s)
    (hfinish : shape.finish s = .ok b) : Reads (Reader.record shape) (.object ms) b :=
  fun source => record_eq_ok.2 ⟨_, hmembers source, hfinish⟩

end Json

end Sparkboard
