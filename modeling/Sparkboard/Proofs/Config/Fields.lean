import Mathlib.Data.List.Sigma
import Sparkboard.Config
import Sparkboard.Proofs.Json.Reading
/-!
# The settings one by one

A setting is named in a text by its name, and its value is a string or a whole number of 64 bits.
Settings that are named once each are read into the draft in any order (`members_settings`), and a
setting that was not named keeps its default (`get_complete`).  Members that are read have the names
of settings, no two of them the same one (`named_of_members`).
-/

namespace Sparkboard

open Json (Reader Node Members)

/-- The members of an object that ends in its closing brace. -/
def Json.Members.ofNodes : List (String × Node) → Members
  | [] => .close
  | (name, node) :: rest => .member (some name) node (ofNodes rest)

namespace Config

/-- The settings that are lengths of time. -/
inductive Span where
  | animationDuration
  | animationClearDelay
  | refreshDelay
  | loaderAutoIdle
  | loadingFadeIn
  | loadingTick
  | loadingSettle
  | loadingFadeOut
  deriving DecidableEq, Repr

/-- The settings. -/
inductive Field where
  | animationName
  | span (s : Span)
  deriving DecidableEq, Repr

/-- The length of time, in milliseconds. -/
def ms (c : Config) : Span → UInt64
  | .animationDuration => c.animationDurationMs
  | .animationClearDelay => c.animationClearDelayMs
  | .refreshDelay => c.refreshDelayMs
  | .loaderAutoIdle => c.loaderAutoIdleMs
  | .loadingFadeIn => c.loadingFadeInMs
  | .loadingTick => c.loadingTickMs
  | .loadingSettle => c.loadingSettleMs
  | .loadingFadeOut => c.loadingFadeOutMs

/-- What the dashboard takes for the length of time. -/
def delay (c : Config) : Span → Duration
  | .animationDuration => c.animator.duration
  | .animationClearDelay => c.animator.clearAfter
  | .refreshDelay => c.refreshDelay
  | .loaderAutoIdle => c.loaderAutoIdle
  | .loadingFadeIn => c.barTiming.fadeIn
  | .loadingTick => c.barTiming.tick
  | .loadingSettle => c.barTiming.settle
  | .loadingFadeOut => c.barTiming.fadeOut

namespace Field

def Value : Field → Type
  | animationName => String
  | span _ => UInt64

def name : Field → String
  | animationName => "animation_name"
  | span .animationDuration => "animation_duration_ms"
  | span .animationClearDelay => "animation_clear_delay_ms"
  | span .refreshDelay => "refresh_delay_ms"
  | span .loaderAutoIdle => "loader_auto_idle_ms"
  | span .loadingFadeIn => "loading_fade_in_ms"
  | span .loadingTick => "loading_tick_ms"
  | span .loadingSettle => "loading_settle_ms"
  | span .loadingFadeOut => "loading_fade_out_ms"

def node : (f : Field) → f.Value → Node
  | animationName, s => .string s
  | span _, w => .integer (UInt64.toNat w)

def reader : (f : Field) → Reader f.Value
  | animationName => Reader.string
  | span _ => wordReader

theorem name_injective : Function.Injective name := by
  intro f g h
  rcases f with - | s <;> rcases g with - | t
  · rfl
  · cases t <;> exact absurd h (by decide)
  · cases s <;> exact absurd h (by decide)
  · cases s <;> cases t <;> first | rfl | exact absurd h (by decide)

end Field

def get (c : Config) : (f : Field) → f.Value
  | .animationName => c.animationName
  | .span s => c.ms s

theorem ext_get {c c' : Config} (h : ∀ f, c.get f = c'.get f) : c = c' := by
  obtain ⟨⟩ := c
  obtain ⟨⟩ := c'
  rw [Config.mk.injEq]
  exact ⟨h .animationName, h (.span .animationDuration), h (.span .animationClearDelay),
    h (.span .refreshDelay), h (.span .loaderAutoIdle), h (.span .loadingFadeIn),
    h (.span .loadingTick), h (.span .loadingSettle), h (.span .loadingFadeOut)⟩

/-- A setting with a value. -/
abbrev Setting := Sigma Field.Value

def Setting.member (x : Setting) : String × Node :=
  (x.1.name, x.1.node x.2)

namespace Draft

/-- The length of time that the text has named so far, if it has. -/
def ms? (d : Draft) : Span → Option UInt64
  | .animationDuration => d.animationDurationMs
  | .animationClearDelay => d.animationClearDelayMs
  | .refreshDelay => d.refreshDelayMs
  | .loaderAutoIdle => d.loaderAutoIdleMs
  | .loadingFadeIn => d.loadingFadeInMs
  | .loadingTick => d.loadingTickMs
  | .loadingSettle => d.loadingSettleMs
  | .loadingFadeOut => d.loadingFadeOutMs

/-- The value that the text has named so far, if it has. -/
def get? (d : Draft) : (f : Field) → Option f.Value
  | .animationName => d.animationName
  | .span s => d.ms? s

def put (d : Draft) : Setting → Draft
  | ⟨.animationName, v⟩ => { d with animationName := some v }
  | ⟨.span .animationDuration, v⟩ => { d with animationDurationMs := some v }
  | ⟨.span .animationClearDelay, v⟩ => { d with animationClearDelayMs := some v }
  | ⟨.span .refreshDelay, v⟩ => { d with refreshDelayMs := some v }
  | ⟨.span .loaderAutoIdle, v⟩ => { d with loaderAutoIdleMs := some v }
  | ⟨.span .loadingFadeIn, v⟩ => { d with loadingFadeInMs := some v }
  | ⟨.span .loadingTick, v⟩ => { d with loadingTickMs := some v }
  | ⟨.span .loadingSettle, v⟩ => { d with loadingSettleMs := some v }
  | ⟨.span .loadingFadeOut, v⟩ => { d with loadingFadeOutMs := some v }

variable {d : Draft} {x : Setting} {f : Field}

theorem get?_nothing (f : Field) : ({} : Draft).get? f = none := by
  cases f with
  | animationName => rfl
  | span s => cases s <;> rfl

@[simp]
theorem get?_put_self (d : Draft) (x : Setting) : (d.put x).get? x.1 = some x.2 := by
  obtain ⟨f, v⟩ := x
  cases f with
  | animationName => rfl
  | span s => cases s <;> rfl

theorem get?_put_of_ne (h : f ≠ x.1) : (d.put x).get? f = d.get? f := by
  obtain ⟨g, v⟩ := x
  rcases g with - | s
  · cases f with
    | animationName => exact absurd rfl h
    | span => rfl
  · cases f with
    | animationName => cases s <;> rfl
    | span t => cases s <;> cases t <;> first | rfl | exact absurd rfl h

theorem get_complete (d : Draft) (f : Field) :
    d.complete.get f = (d.get? f).getD (default.get f) := by
  cases f with
  | animationName => rfl
  | span s => cases s <;> rfl

end Draft

/-! ## Reading members -/

variable {d d' : Draft} {f : Field} {source : Json.Source} {name : String}

theorem find?_slot (f : Field) : shape.slots.find? (fun slot => slot.name == f.name) =
    some (.of f.name f.reader (Draft.get? · f) fun v d => d.put ⟨f, v⟩) := by
  cases f with
  | animationName => rfl
  | span s => cases s <;> rfl

theorem exists_field_of_slot {slot : Reader.Slot Draft} (h : slot ∈ shape.slots) :
    ∃ f : Field, slot.name = f.name := by
  simp only [shape, List.mem_cons, List.not_mem_nil, or_false] at h
  rcases h with rfl | rfl | rfl | rfl | rfl | rfl | rfl | rfl | rfl
  exacts [⟨.animationName, rfl⟩, ⟨.span .animationDuration, rfl⟩, ⟨.span .animationClearDelay, rfl⟩,
    ⟨.span .refreshDelay, rfl⟩, ⟨.span .loaderAutoIdle, rfl⟩, ⟨.span .loadingFadeIn, rfl⟩,
    ⟨.span .loadingTick, rfl⟩, ⟨.span .loadingSettle, rfl⟩, ⟨.span .loadingFadeOut, rfl⟩]

theorem reader_node (f : Field) (v : f.Value) : f.reader source (f.node v) = .ok v := by
  cases f with
  | animationName => rfl
  | span s =>
    have hlt : UInt64.toNat v < Nat.pow 2 64 := UInt64.toNat_lt v
    have hword : Reader.word64 source (.integer (UInt64.toNat v)) = .ok (UInt64.toNat v) := by
      unfold Reader.word64 Reader.natural
      simp [hlt]
    show (Reader.word64 source (.integer (UInt64.toNat v))).map UInt64.ofNat = .ok v
    rw [hword]
    exact congrArg Except.ok (UInt64.ofNat_toNat)

/-- A setting that was not named yet is read into the draft. -/
theorem members_setting {x : Setting} (hfree : d.get? x.1 = none) (rest : List (String × Node)) :
    Reader.members shape source (.ofNodes (x.member :: rest)) d =
      Reader.members shape source (.ofNodes rest) (d.put x) :=
  Json.members_member (find?_slot x.1) hfree (reader_node x.1 x.2) _

theorem members_unknown (h : ∀ f : Field, name ≠ f.name) (node : Node)
    (rest : List (String × Node)) :
    Reader.members shape source (.ofNodes ((name, node) :: rest)) d =
      .error (.unknownField name (shape.slots.map Reader.Slot.name)) := by
  have hnone : shape.slots.find? (fun slot => slot.name == name) = none := by
    refine List.find?_eq_none.2 fun slot hslot heq => ?_
    obtain ⟨f, hf⟩ := exists_field_of_slot hslot
    exact h f ((beq_iff_eq.1 heq).symm.trans hf)
  have hrefuses : shape.refusesOthers = true := rfl
  simp [Members.ofNodes, Reader.members, hnone, hrefuses]

/-- A second member for a setting is an error. -/
theorem members_repeated (h : (d.get? f).isSome) (node : Node) (rest : List (String × Node)) :
    Reader.members shape source (.ofNodes ((f.name, node) :: rest)) d =
      .error (.duplicateField f.name) := by
  simp [Members.ofNodes, Reader.members, find?_slot, Reader.Slot.of, h]

/-- A member that is read names a setting that was not named yet. -/
theorem setting_of_members {m : String × Node} {rest : List (String × Node)}
    (h : Reader.members shape source (.ofNodes (m :: rest)) d = .ok d') :
    ∃ x : Setting, m.1 = x.1.name ∧ d.get? x.1 = none ∧
      Reader.members shape source (.ofNodes rest) (d.put x) = .ok d' := by
  obtain ⟨name, node⟩ := m
  by_cases hname : ∃ f : Field, name = f.name
  · obtain ⟨f, rfl⟩ := hname
    cases hfree : d.get? f with
    | some v =>
      rw [members_repeated (by rw [hfree]; rfl)] at h
      cases h
    | none =>
      cases hread : f.reader source node with
      | error e =>
        simp [Members.ofNodes, Reader.members, find?_slot, Reader.Slot.of, hfree, hread, bind,
          Except.bind, Except.map] at h
      | ok v =>
        rw [Members.ofNodes, Json.members_member (find?_slot f) hfree hread] at h
        exact ⟨⟨f, v⟩, rfl, hfree, h⟩
  · rw [members_unknown (not_exists.1 hname)] at h
    cases h

/-- Members that are read name settings that were not named yet, each of them once. -/
theorem named_of_members {ms : List (String × Node)}
    (h : Reader.members shape source (.ofNodes ms) d = .ok d') :
    (∀ m ∈ ms, ∃ f : Field, m.1 = f.name ∧ d.get? f = none) ∧ (ms.map Prod.fst).Nodup := by
  induction ms generalizing d with
  | nil => exact ⟨nofun, List.nodup_nil⟩
  | cons m ms ih =>
    obtain ⟨x, hm, hfree, hrest⟩ := setting_of_members h
    obtain ⟨hnamed, hnodup⟩ := ih hrest
    -- what is named later is another setting, as this one is not free any more
    have hlater : ∀ m' ∈ ms, ∃ f : Field, m'.1 = f.name ∧ f ≠ x.1 ∧ d.get? f = none := by
      intro m' hm'
      obtain ⟨f, hf, hnone⟩ := hnamed m' hm'
      have hne : f ≠ x.1 := by
        rintro rfl
        rw [Draft.get?_put_self] at hnone
        cases hnone
      rw [Draft.get?_put_of_ne hne] at hnone
      exact ⟨f, hf, hne, hnone⟩
    refine ⟨List.forall_mem_cons.2 ⟨⟨x.1, hm, hfree⟩, fun m' hm' => ?_⟩,
      List.nodup_cons.2 ⟨fun hmem => ?_, hnodup⟩⟩
    · obtain ⟨f, hf, -, hnone⟩ := hlater m' hm'
      exact ⟨f, hf, hnone⟩
    · obtain ⟨m', hm', heq⟩ := List.mem_map.1 hmem
      obtain ⟨f, hf, hne, -⟩ := hlater m' hm'
      exact hne (Field.name_injective (hf.symm.trans (heq.trans hm)))

variable {settings : List Setting}

/-- Settings that are named once each are read into the draft one after the other. -/
theorem members_settings (hn : settings.NodupKeys) (hfree : ∀ x ∈ settings, d.get? x.1 = none) :
    Reader.members shape source (.ofNodes (settings.map Setting.member)) d =
      .ok (settings.foldl Draft.put d) := by
  induction settings generalizing d with
  | nil => rfl
  | cons x settings ih =>
    obtain ⟨hx, hn⟩ := List.nodupKeys_cons.1 hn
    obtain ⟨hfirst, hothers⟩ := List.forall_mem_cons.1 hfree
    rw [List.map_cons, members_setting hfirst, ih hn fun y hy => ?_, List.foldl_cons]
    have hne : y.1 ≠ x.1 := fun heq => hx (heq ▸ List.mem_keys_of_mem hy)
    rw [Draft.get?_put_of_ne hne, hothers y hy]

/-- The draft holds what was named and keeps the rest. -/
theorem get?_putAll (hn : settings.NodupKeys) (d : Draft) (f : Field) :
    (settings.foldl Draft.put d).get? f = (settings.dlookup f).or (d.get? f) := by
  induction settings generalizing d with
  | nil => rfl
  | cons x settings ih =>
    obtain ⟨hx, hn⟩ := List.nodupKeys_cons.1 hn
    rw [List.foldl_cons, ih hn]
    rcases eq_or_ne f x.1 with rfl | hne
    · rw [List.dlookup_eq_none.2 hx, List.dlookup_cons_eq, Draft.get?_put_self]
      rfl
    · rw [List.dlookup_cons_ne _ _ hne, Draft.get?_put_of_ne hne]

end Config

end Sparkboard
