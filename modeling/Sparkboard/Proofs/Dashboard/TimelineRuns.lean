import Sparkboard.Proofs.Dashboard.Run
/-!
# The timeline in every run

A step moves the timeline in one of a few ways (`Step.moves`), each of which keeps it sound.  So in
every run no task is overdue and the tasks come out in order (`Run.sound`).  `Scheduled` lists all
that is ever scheduled (`Step.scheduled`).
-/

namespace Sparkboard

namespace Dashboard

variable {d d' : Dashboard} {deed : Deed} {e : Entry Task}

/-! ## How the timeline moves -/

theorem Draws.grows {labels : List String} {values : List Float} {key : String}
    {outcome : Except ChartError Nat} (h : d.Draws labels values key outcome d') :
    d.timeline.Grows d'.timeline := by
  cases h with
  | refused => exact .same
  | came hc hd => exact .push (Duration.le_of_add? hd)

theorem Ran.grows {task : Task} (h : d.Ran task d') : d.timeline.Grows d'.timeline := by
  cases h with
  | redraw hd => exact hd.grows
  | tick hb hk hd => exact .push (Duration.le_of_add? hd)
  | stale | clear | lastTick => exact .same
  | autoIdle =>
    unfold withLoader
    exact .same

theorem Step.moves (hs : Step d deed d') : d.timeline.Moves d'.timeline := by
  cases hs with
  | mount | unmount => exact .grow .same
  | draw h => exact .grow h.grows
  | planRedraw hd => exact .grow (.push (Duration.le_of_add? hd))
  | moveLoader state =>
    unfold withLoader
    exact .grow .same
  | finishLoader hd =>
    unfold withLoader
    exact .grow (.push (Duration.le_of_add? hd))
  | startBar hd => exact .grow (.push (Duration.le_of_add? hd))
  | fire hp hr h => exact .pop hp h.grows
  | takeRedraw hp => exact .pop hp .same
  | wait hn hm => exact .wait hm

theorem Run.keeps_sound {start : Dashboard} {h : History} (hr : Run start h d)
    (hs : start.timeline.Sound) : d.timeline.Sound := by
  induction hr with
  | nil => exact hs
  | snoc _ hs ih => exact hs.moves.sound ih

theorem Run.sound {config : Config} {h : History} (hr : Run (new config) h d) :
    d.timeline.Sound :=
  hr.keeps_sound Timeline.sound_start

theorem Run.scheduled_le {start : Dashboard} {h : History} (hr : Run start h d) :
    ∀ m ∈ h, m.before.timeline.scheduled ≤ d.timeline.scheduled := by
  induction hr with
  | nil =>
    intro m hm
    cases hm
  | snoc _ hs ih =>
    intro m hm
    rcases List.mem_append.1 hm with hm | hm
    · exact Nat.le_trans (ih m hm) hs.moves.scheduled_le
    · rw [List.mem_singleton] at hm
      subst hm
      exact hs.moves.scheduled_le

/-- A task that had been scheduled by some moment of a run waited before the last step, if it waits
after it. -/
theorem Run.mem_pending_of_lt {start : Dashboard} {h : History} {m : Moment} (hr : Run start h d)
    (hs : Step d deed d') (he : e ∈ d'.timeline.pending) (hm : m ∈ h ++ [⟨d, deed⟩])
    (hlt : e.order < m.before.timeline.scheduled) : e ∈ d.timeline.pending := by
  rcases hs.moves.mem_pending he with hold | horder
  · exact hold
  · have hle : m.before.timeline.scheduled ≤ d.timeline.scheduled := by
      rcases List.mem_append.1 hm with hm | hm
      · exact hr.scheduled_le m hm
      · rw [List.mem_singleton] at hm
        subst hm
        exact Nat.le_refl _
    omega

/-! ## What is scheduled -/

/-- A task that a deed has just scheduled, and when it is due.  The steps of a bar, whose delays
differ, are told apart by the timetable. -/
inductive Scheduled (d : Dashboard) : Deed → Entry Task → Prop where
  | clear {deed due order key generation}
    (hd : d.now.add? d.config.animator.clearAfter = some due) :
    Scheduled d deed ⟨due, order, .clearAnimation key generation⟩
  | redraw {due order labels} (hd : d.now.add? d.config.refreshDelay = some due) :
    Scheduled d (.planRedraw labels) ⟨due, order, .redraw employeeKey labels refreshSample⟩
  | autoIdle {due order} (hd : d.now.add? d.config.loaderAutoIdle = some due) :
    Scheduled d .finishLoader ⟨due, order, .autoIdle d.loader.generation⟩
  | tick {deed due order session} : Scheduled d deed ⟨due, order, .loadingTick session⟩

theorem Draws.scheduled {labels : List String} {values : List Float} {key : String}
    {outcome : Except ChartError Nat} (h : d.Draws labels values key outcome d')
    (he : e ∈ d'.timeline.pending) : e ∈ d.timeline.pending ∨ d'.Scheduled deed e := by
  cases h with
  | refused => exact .inl he
  | came _ hd =>
    rcases Timeline.mem_push.1 he with rfl | he
    · exact .inr (.clear hd)
    · exact .inl he

theorem Ran.scheduled {task : Task} (h : d.Ran task d') (he : e ∈ d'.timeline.pending) :
    e ∈ d.timeline.pending ∨ d'.Scheduled deed e := by
  cases h with
  | stale | clear | lastTick => exact .inl he
  | redraw hd => exact hd.scheduled he
  | autoIdle =>
    rw [timeline_withLoader] at he
    exact .inl he
  | tick =>
    rcases Timeline.mem_push.1 he with rfl | he
    · exact .inr .tick
    · exact .inl he

/-- A task that waits waited before, or it was just scheduled. -/
theorem Step.scheduled (hs : Step d deed d') (he : e ∈ d'.timeline.pending) :
    e ∈ d.timeline.pending ∨ d'.Scheduled deed e := by
  cases hs with
  | mount | unmount | wait => exact .inl he
  | draw h => exact h.scheduled he
  | planRedraw hd =>
    rcases Timeline.mem_push.1 he with rfl | he
    · exact .inr (.redraw hd)
    · exact .inl he
  | moveLoader state =>
    rw [timeline_withLoader] at he
    exact .inl he
  | finishLoader hd =>
    rw [← now_withLoader d .success, ← config_withLoader d .success] at hd
    rw [← timeline_withLoader d .success]
    -- what the loader shows now makes no difference
    generalize d.withLoader .success = d₁ at hd he ⊢
    rcases Timeline.mem_push.1 he with rfl | he
    · exact .inr (.autoIdle hd)
    · exact .inl he
  | startBar =>
    rcases Timeline.mem_push.1 he with rfl | he
    · exact .inr .tick
    · exact .inl he
  | fire hp hr h =>
    rcases h.scheduled he with he | hnew
    · exact .inl (Timeline.mem_of_mem_pop hp he)
    · exact .inr hnew
  | takeRedraw hp => exact .inl (Timeline.mem_of_mem_pop hp he)

end Dashboard

end Sparkboard
