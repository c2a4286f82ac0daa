import Sparkboard.Proofs.Dashboard.History
import Sparkboard.Proofs.Dashboard.Parts
import Sparkboard.Proofs.Loader.Panels
/-!
# The loader on the board

A dashboard hands its board to the loader and to nothing else (`Step.handsBoard`).  So in every run
the board shows the state of the loader and carries no other flag (`Run.showsLoader`), and between
any two changes to it no more than one panel is shown (`Run.onePanel_step`).
-/

namespace Sparkboard

namespace Dashboard

variable {config : Config} {h : History} {d d' : Dashboard} {deed : Deed}

/-- The changes that running a task makes to the board, in order. -/
def taskChanges (d : Dashboard) : Task → List FlagChange
  | .autoIdle generation =>
    match d.loader.autoIdle? generation with
    | some move => move.1
    | none => []
  | .clearAnimation .. | .redraw .. | .loadingTick _ => []

/-- The changes that a deed makes to the board, in order. -/
def boardChanges (d : Dashboard) : Deed → List FlagChange
  | .moveLoader state => (d.loader.move state).1
  | .finishLoader => d.loader.finishSuccess.1
  | .fire entry => d.taskChanges entry.task
  | _ => []

/-- Are these the changes to the board, and are they those of a move of the loader, if there are
any? -/
structure HandsBoard (d : Dashboard) (changes : List FlagChange) (d' : Dashboard) : Prop where
  board : d'.board = d.board.applyAll changes
  loader : (changes = [] ∧ d'.loader = d.loader) ∨
    ∃ state, changes = (d.loader.move state).1 ∧ d'.loader = (d.loader.move state).2

/-! ## Every step -/

theorem handsBoard_withLoader (d : Dashboard) (state : LoaderState) :
    HandsBoard d (d.loader.move state).1 (d.withLoader state) := by
  unfold withLoader
  exact ⟨rfl, .inr ⟨state, rfl, rfl⟩⟩

theorem Agree.handsBoard (ha : Agree .loader d d') : HandsBoard d [] d' := by
  obtain ⟨hloader, hboard⟩ := PartState.loader.inj ha.state
  exact ⟨hboard, .inl ⟨rfl, hloader⟩⟩

/-- A task changes the board only if it hides the loader. -/
theorem Ran.handsBoard {task : Task} (h : d.Ran task d') :
    HandsBoard d (d.taskChanges task) d' := by
  cases h with
  | clear | tick | lastTick => exact ⟨rfl, .inl ⟨rfl, rfl⟩⟩
  | redraw hd =>
    have ha : Agree .loader d d' := hd.agree nofun
    exact ha.handsBoard
  | autoIdle =>
    simp only [taskChanges, Loader.autoIdle?_generation]
    exact handsBoard_withLoader d .idle
  | stale hs =>
    cases task with
    | clearAnimation | redraw | loadingTick => exact ⟨rfl, .inl ⟨rfl, rfl⟩⟩
    | autoIdle generation =>
      have hne : generation ≠ d.loader.generation := hs
      simp only [taskChanges, Loader.autoIdle?_of_ne hne]
      exact ⟨rfl, .inl ⟨rfl, rfl⟩⟩

/-- A step changes the board only by a move of the loader. -/
theorem Step.handsBoard (hs : Step d deed d') : HandsBoard d (d.boardChanges deed) d' := by
  cases hs with
  | mount | unmount | planRedraw | startBar | wait => exact ⟨rfl, .inl ⟨rfl, rfl⟩⟩
  | draw h =>
    have ha : Agree .loader d d' := h.agree nofun
    exact ha.handsBoard
  | moveLoader state => exact handsBoard_withLoader d state
  | finishLoader =>
    have hmove := handsBoard_withLoader d .success
    exact ⟨hmove.board, hmove.loader⟩
  | fire hp hr h => exact ⟨h.handsBoard.board, h.handsBoard.loader⟩
  | takeRedraw hp ht =>
    show HandsBoard d (d.taskChanges _) _
    rw [ht]
    exact ⟨rfl, .inl ⟨rfl, rfl⟩⟩

/-! ## Every run -/

/-- Does the board show the state of the loader, and carry no other flag? -/
def ShowsLoader (d : Dashboard) : Prop :=
  ∀ id flag, d.board.has id flag = true ↔ id ∈ d.loader.state.shownIds ∧ flag = shownFlag

theorem HandsBoard.showsLoader {changes : List FlagChange} (hb : HandsBoard d changes d')
    (hm : d.ShowsLoader) : d'.ShowsLoader := by
  intro id flag
  rw [hb.board]
  rcases hb.loader with ⟨rfl, hloader⟩ | ⟨state, rfl, hloader⟩
  · rw [hloader]
    exact hm id flag
  · rw [hloader, Loader.has_applyAll_move, hm]
    constructor
    · rintro (hnew | ⟨hother, hold⟩)
      · exact hnew
      · exact absurd ⟨LoaderState.mem_ids_of_shown hold.1, hold.2⟩ hother
    · exact .inl

/-- In every run the board shows the state of the loader. -/
theorem Run.showsLoader (hr : Run (new config) h d) : d.ShowsLoader := by
  induction hr with
  | nil =>
    intro id flag
    exact ⟨nofun, nofun⟩
  | snoc _ hs ih => exact hs.handsBoard.showsLoader ih

theorem Run.sorted_board (hr : Run (new config) h d) : d.board.flags.Sorted := by
  induction hr with
  | nil => exact .nil
  | snoc _ hs ih =>
    rw [hs.handsBoard.board]
    exact FlagBoard.sorted_applyAll ih _

/-- The elements that are listed as shown are those that the state of the loader shows. -/
theorem Run.flagged_perm (hr : Run (new config) h d) :
    (d.board.flagged shownFlag).Perm d.loader.state.shownIds := by
  refine (List.perm_ext_iff_of_nodup (FlagBoard.nodup_flagged hr.sorted_board shownFlag)
    d.loader.state.nodup_shownIds).2 fun id => ?_
  rw [FlagBoard.mem_flagged hr.sorted_board, hr.showsLoader]
  exact and_iff_left rfl

theorem Run.onePanel (hr : Run (new config) h d) : d.board.OnePanel :=
  fun id hid other ho h h' =>
    LoaderState.panel_unique hid ho ((hr.showsLoader id _).1 h).1 ((hr.showsLoader other _).1 h').1

theorem Run.onePanel_step (hr : Run (new config) h d) (hs : Step d deed d')
    {seen : List FlagChange} (hseen : seen <+: d.boardChanges deed) :
    (d.board.applyAll seen).OnePanel := by
  rcases hs.handsBoard.loader with ⟨hnone, -⟩ | ⟨state, hmove, -⟩
  · rw [hnone, List.prefix_nil] at hseen
    rw [hseen]
    exact hr.onePanel
  · rw [hmove] at hseen
    exact Loader.onePanel_of_prefix hr.onePanel hseen

/-- In every state the elements that are shown are those of the state of the loader, and while that
moves, now or in the run so far, no second panel is shown.  On whatever board a loader moves, its
elements are shown as its new state says and all else is as it was; hiding it too late changes
nothing. -/
theorem board_shows_loader {ops : List Operation} {answers : List Answer}
    (h : ((new config).performAll ops).result = .ok (answers, d)) :
    ((d.board.flagged shownFlag).Perm d.loader.state.shownIds ∧
      (∀ move, d.loader.Moves move → ∀ seen, seen <+: move.1 →
        (d.board.applyAll seen).OnePanel) ∧
      ∀ m ∈ (new config).history ops,
        (∀ after, (m.before.act m.deed).result = .ok after →
          after.board = m.before.board.applyAll (m.before.boardChanges m.deed)) ∧
        ∀ seen, seen <+: m.before.boardChanges m.deed →
          (m.before.board.applyAll seen).OnePanel) ∧
    ∀ (l : Loader) (b : FlagBoard),
      (∀ move, l.Moves move → (b.applyAll move.1).Shows move.2.state ∧
        ∀ id flag, ¬(id ∈ Loader.ids ∧ flag = shownFlag) →
          (b.applyAll move.1).has id flag = b.has id flag) ∧
      ∀ generation, generation ≠ l.generation → l.autoIdle? generation = none ∧
        ∀ e : Dashboard, e.loader = l → (e.run (.autoIdle generation)).result = .ok e := by
  have hr := run_of_performAll h
  refine ⟨⟨hr.flagged_perm, fun move hmove seen => hmove.onePanel hr.onePanel, ?_⟩, ?_⟩
  · intro m hm
    obtain ⟨_, _, hbefore, hstep⟩ := hr.at_moment hm
    refine ⟨fun after hact => ?_, fun seen hseen => hbefore.onePanel_step hstep hseen⟩
    exact (step_of_act hstep.timely hact).handsBoard.board
  · intro l b
    refine ⟨fun move hmove => ⟨hmove.shows b, fun id flag => hmove.has_other b⟩, ?_⟩
    intro generation hne
    refine ⟨Loader.autoIdle?_of_ne hne, ?_⟩
    rintro e rfl
    exact result_run_of_stale hne

def successHidden : List Operation :=
  [.loaderStart, .loaderFinishSuccess, .advance (.ofMillis 1000)]

/-- A board on which two panels were shown by someone else. -/
def strayBoard : FlagBoard :=
  FlagBoard.empty.applyAll [.set "request-loader" shownFlag, .set "success-loader" shownFlag,
    .set "menu" "open"]

/-- Nothing is shown at the end; when the panel of success was shown but not yet the dimmer, no
other panel was; and a step of the loader hides both panels that were shown before. -/
theorem board_shows_successHidden :
    ∃ answers d, ((new .default).performAll successHidden).result = .ok (answers, d) ∧
      (d.board.flagged shownFlag).Perm [] ∧
      (∃ m ∈ (new .default).history successHidden,
        (m.before.board.applyAll ((m.before.boardChanges m.deed).take 6)).has "success-loader"
          shownFlag = true ∧
        (m.before.board.applyAll ((m.before.boardChanges m.deed).take 6)).OnePanel) ∧
      (strayBoard.applyAll (Loader.step ⟨.approve, 7⟩).1).Shows .fail ∧
      (strayBoard.applyAll (Loader.step ⟨.approve, 7⟩).1).has "menu" "open" = true := by
  obtain ⟨answers, d, hrun, hidle⟩ : ∃ answers d,
      ((new .default).performAll successHidden).result = .ok (answers, d) ∧
        d.loader.state = .idle := ⟨_, _, rfl, rfl⟩
  obtain ⟨m, hm, hshown⟩ : ∃ m ∈ (new .default).history successHidden,
      (m.before.board.applyAll ((m.before.boardChanges m.deed).take 6)).has "success-loader"
        shownFlag = true := ⟨_, List.mem_of_getElem? (i := 1) rfl, by decide⟩
  obtain ⟨⟨hflagged, -, hmoments⟩, hany⟩ := board_shows_loader hrun
  obtain ⟨hshows, hother⟩ := (hany ⟨.approve, 7⟩ strayBoard).1 _ .step
  rw [hidle] at hflagged
  refine ⟨answers, d, hrun, hflagged, ⟨m, hm, hshown, (hmoments m hm).2 _ (List.take_prefix 6 _)⟩,
    hshows, ?_⟩
  rw [hother "menu" "open" (by decide)]
  decide

end Dashboard

end Sparkboard
