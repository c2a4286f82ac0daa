import Sparkboard.Loader
import Sparkboard.Proofs.Flags.Board
/-!
# What the loader shows

A move of the loader hides everything and then shows the panel of the new state and the dimmer.  So
whatever was on the board before, the elements of the loader are shown as the new state says and all
else is as it was (`has_applyAll_move`), and halfway through a move no second panel is shown
(`onePanel_of_prefix`).
-/

namespace Sparkboard

/-- The elements that show the states. -/
def LoaderState.panelIds : List String :=
  ["request-loader", "approve-loader", "fail-loader", "success-loader"]

/-- The elements that are shown in a state: its panel and the dimmer. -/
def LoaderState.shownIds : LoaderState → List String
  | .idle => []
  | .request => ["request-loader", "loader-bg"]
  | .approve => ["approve-loader", "loader-bg"]
  | .fail => ["fail-loader", "loader-bg"]
  | .success => ["success-loader", "loader-bg"]

def Loader.ids : List String := LoaderState.panelIds ++ ["loader-bg"]

/-- Are the elements of the loader shown as this state says? -/
def FlagBoard.Shows (b : FlagBoard) (s : LoaderState) : Prop :=
  ∀ id ∈ Loader.ids, b.has id shownFlag = true ↔ id ∈ s.shownIds

/-- Is no more than one panel shown? -/
def FlagBoard.OnePanel (b : FlagBoard) : Prop :=
  ∀ id ∈ LoaderState.panelIds, ∀ other ∈ LoaderState.panelIds,
    b.has id shownFlag = true → b.has other shownFlag = true → id = other

/-- A move of the loader: the changes to the board, and the loader afterwards. -/
inductive Loader.Moves (l : Loader) : List FlagChange × Loader → Prop where
  | start : Moves l l.start
  | step : Moves l l.step
  | finishSuccess : Moves l l.finishSuccess
  | hide : Moves l l.hide
  | autoIdle {generation : Nat} {move : List FlagChange × Loader}
    (h : l.autoIdle? generation = some move) : Moves l move

namespace LoaderState

variable {id other : String}

theorem mem_ids_of_shown {s : LoaderState} (h : id ∈ s.shownIds) : id ∈ Loader.ids := by
  have hall : ∀ id ∈ s.shownIds, id ∈ Loader.ids := by cases s <;> decide
  exact hall id h

theorem mem_ids_of_panel (h : id ∈ panelIds) : id ∈ Loader.ids := List.mem_append_left _ h

theorem nodup_shownIds (s : LoaderState) : s.shownIds.Nodup := by
  cases s <;> decide

theorem panel_unique {s : LoaderState} (hid : id ∈ panelIds) (ho : other ∈ panelIds)
    (h : id ∈ s.shownIds) (h' : other ∈ s.shownIds) : id = other := by
  have hall : ∀ id ∈ panelIds, ∀ other ∈ panelIds,
      id ∈ s.shownIds → other ∈ s.shownIds → id = other := by cases s <;> decide
  exact hall id hid other ho h h'

end LoaderState

namespace Loader

variable {l : Loader} {s : LoaderState} {b : FlagBoard} {move : List FlagChange × Loader}

theorem hideAll_eq : hideAll = ids.map (.clear · shownFlag) := rfl

theorem reveal_eq (s : LoaderState) : reveal s = s.shownIds.map (.set · shownFlag) := by
  cases s <;> rfl

theorem autoIdle?_generation (l : Loader) : l.autoIdle? l.generation = some (l.move .idle) :=
  if_pos rfl

theorem autoIdle?_of_ne {generation : Nat} (h : generation ≠ l.generation) :
    l.autoIdle? generation = none :=
  if_neg h

theorem Moves.exists_eq (h : l.Moves move) : ∃ s, move = l.move s := by
  cases h with
  | start | step | finishSuccess | hide => exact ⟨_, rfl⟩
  | @autoIdle generation _ h =>
    by_cases hg : generation = l.generation
    · rw [hg, autoIdle?_generation, Option.some.injEq] at h
      exact ⟨.idle, h.symm⟩
    · rw [autoIdle?_of_ne hg] at h
      cases h

/-- After a move an element of the loader is shown if the new state shows it; any other flag is
where it was. -/
theorem has_applyAll_move (l : Loader) (s : LoaderState) (b : FlagBoard) (id flag : String) :
    (b.applyAll (l.move s).1).has id flag = true ↔
      (id ∈ s.shownIds ∧ flag = shownFlag) ∨
        ¬(id ∈ ids ∧ flag = shownFlag) ∧ b.has id flag = true := by
  show (b.applyAll (hideAll ++ reveal s)).has id flag = true ↔ _
  rw [FlagBoard.applyAll_append, hideAll_eq, reveal_eq, FlagBoard.has_applyAll_set,
    FlagBoard.has_applyAll_clear]

/-- After a move the board shows the new state. -/
theorem Moves.shows (h : l.Moves move) (b : FlagBoard) :
    (b.applyAll move.1).Shows move.2.state := by
  obtain ⟨s, rfl⟩ := h.exists_eq
  intro id hid
  show _ ↔ id ∈ s.shownIds
  rw [has_applyAll_move]
  simp [hid]

/-- A move leaves all flags alone that are not the loader's. -/
theorem Moves.has_other (h : l.Moves move) (b : FlagBoard) {id flag : String}
    (hother : ¬(id ∈ ids ∧ flag = shownFlag)) :
    (b.applyAll move.1).has id flag = b.has id flag := by
  obtain ⟨s, rfl⟩ := h.exists_eq
  have hshown : ¬(id ∈ s.shownIds ∧ flag = shownFlag) :=
    fun hs => hother ⟨LoaderState.mem_ids_of_shown hs.1, hs.2⟩
  rw [Bool.eq_iff_iff, has_applyAll_move]
  simp [hother, hshown]

/-- If one panel is shown at most, no second one is shown at any time during a move. -/
theorem onePanel_of_prefix (hone : b.OnePanel) {seen : List FlagChange}
    (hseen : seen <+: (l.move s).1) : (b.applyAll seen).OnePanel := by
  obtain ⟨rest, hall⟩ := hseen
  have hall' : seen ++ rest = hideAll ++ reveal s := hall
  rcases List.append_eq_append_iff.1 hall' with ⟨left, hhide, -⟩ | ⟨set, rfl, hreveal⟩
  · -- until all is hidden, no panel is shown that was not shown before
    rw [hideAll_eq] at hhide
    obtain ⟨gone, _, -, rfl, -⟩ := List.map_eq_append_iff.1 hhide
    intro id hid other ho h h'
    rw [FlagBoard.has_applyAll_clear] at h h'
    exact hone id hid other ho h.2 h'.2
  · -- from then on, only the panel of the new state is
    rw [reveal_eq] at hreveal
    obtain ⟨shown, _, hshown, rfl, -⟩ := List.map_eq_append_iff.1 hreveal
    have hstate {id : String} (hid : id ∈ LoaderState.panelIds)
        (h : (b.applyAll (hideAll ++ shown.map (.set · shownFlag))).has id shownFlag = true) :
        id ∈ s.shownIds := by
      rw [FlagBoard.applyAll_append, FlagBoard.has_applyAll_set, hideAll_eq,
        FlagBoard.has_applyAll_clear] at h
      rcases h with h | h
      · rw [hshown]
        exact List.mem_append_left _ h.1
      · exact absurd ⟨LoaderState.mem_ids_of_panel hid, rfl⟩ h.1
    intro id hid other ho h h'
    exact LoaderState.panel_unique hid ho (hstate hid h) (hstate ho h')

theorem Moves.onePanel (h : l.Moves move) (hone : b.OnePanel) {seen : List FlagChange}
    (hseen : seen <+: move.1) : (b.applyAll seen).OnePanel := by
  obtain ⟨s, rfl⟩ := h.exists_eq
  exact onePanel_of_prefix hone hseen

end Loader

end Sparkboard
