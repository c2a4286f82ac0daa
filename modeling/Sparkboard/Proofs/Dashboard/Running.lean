import Sparkboard.Dashboard.Operation
import Sparkboard.Proofs.Timeline.Queue
/-!
# Drawing and running tasks

What the operations of a dashboard come to, with the dashboard afterwards written out.  `Draws`
lists what a draw can do and `Ran` what running a task can do, each case with its guard;
`draws_of_draw` and `ran_of_run` say that they do nothing else.  Later modules argue by these cases
and open none of the operations.
-/

namespace Sparkboard

/-- Work in two parts comes to a result exactly if both parts do. -/
theorem Work.result_bind_eq_ok {α β : Type} {w : Work α} {f : α → Work β} {b : β} :
    (w >>= f).result = .ok b ↔ ∃ a, w.result = .ok a ∧ (f a).result = .ok b := by
  rw [result_bind]
  cases w.result with
  | error e =>
    constructor
    · intro h
      cases h
    · intro hex
      obtain ⟨_, h, _⟩ := hex
      cases h
  | ok a =>
    constructor
    · intro h
      exact ⟨a, rfl, h⟩
    · intro hex
      obtain ⟨a', ha, h⟩ := hex
      cases ha
      exact h

def ChartTarget.still (target : ChartTarget) : ChartTarget :=
  { target with root := { target.root with animation := none } }

namespace Dashboard

variable {d d' : Dashboard} {delay : Duration} {task : Task}

/-! ## What the parts of a deed come to -/

def push (d : Dashboard) (due : Duration) (task : Task) : Dashboard :=
  { d with timeline := d.timeline.push due task }

theorem result_after_eq_ok :
    (d.after delay task).result = .ok d' ↔
      ∃ due, d.now.add? delay = some due ∧ d' = d.push due task := by
  unfold after
  rw [Work.result_bind_eq_ok]
  constructor
  · intro hex
    obtain ⟨timeline, ht, h⟩ := hex
    obtain ⟨due, hd, rfl⟩ := Timeline.after_eq_ok_iff.1 ht
    cases h
    exact ⟨due, hd, rfl⟩
  · intro hex
    obtain ⟨due, hd, rfl⟩ := hex
    exact ⟨_, Timeline.after_eq_ok_iff.2 ⟨due, hd, rfl⟩, rfl⟩

def withLoader (d : Dashboard) (state : LoaderState) : Dashboard :=
  { d with
    board := d.board.applyAll (d.loader.move state).1
    loader := (d.loader.move state).2 }

theorem result_moveLoader (d : Dashboard) (state : LoaderState) :
    (d.moveLoader (d.loader.move state)).result = .ok (d.withLoader state) := rfl

theorem timeline_withLoader (d : Dashboard) (state : LoaderState) :
    (d.withLoader state).timeline = d.timeline := by
  unfold withLoader
  rfl

theorem now_withLoader (d : Dashboard) (state : LoaderState) :
    (d.withLoader state).now = d.now := by
  unfold now withLoader
  rfl

theorem config_withLoader (d : Dashboard) (state : LoaderState) :
    (d.withLoader state).config = d.config := by
  unfold withLoader
  rfl

def waited (d : Dashboard) (moment : Duration) : Dashboard :=
  { d with timeline := d.timeline.advanceTo moment }

theorem now_waited {moment : Duration} (h : d.now ≤ moment) : (d.waited moment).now = moment := by
  apply Duration.ext
  show (d.now.latest moment).nanos = _
  rw [Duration.nanos_latest]
  rw [Duration.le_def] at h
  omega

theorem result_loaderFinishSuccess :
    d.loaderFinishSuccess.result = .ok d' ↔
      ∃ due, d.now.add? d.config.loaderAutoIdle = some due ∧
        d' = (d.withLoader .success).push due
          (.autoIdle (d.withLoader .success).loader.generation) := by
  have hl : (d.moveLoader d.loader.finishSuccess).result = .ok (d.withLoader .success) :=
    result_moveLoader d .success
  unfold loaderFinishSuccess
  simp only [Work.result_bind_eq_ok, hl, Except.ok.injEq, exists_eq_left', result_after_eq_ok,
    now_withLoader, config_withLoader]

def shown (d : Dashboard) (key : String) (texts : LabelSet) (series : Series)
    (target : ChartTarget) : ChartTarget :=
  let target := target.redraw texts series (d.lastGeneration key + 1)
  { target with root := (d.config.animator.animate target.root (d.lastGeneration key + 1)).2 }

/-- The dashboard after a draw that came off; its animation is to be taken off at `due`. -/
def drawn (d : Dashboard) (key : String) (texts : LabelSet) (series : Series)
    (target : ChartTarget) (due : Duration) : Dashboard :=
  { d with
    charts := d.charts.insert key (d.shown key texts series target)
    generations := d.generations.insert key (d.lastGeneration key + 1)
    timeline := d.timeline.push due (.clearAnimation key (d.lastGeneration key + 1)) }

/-- All that a draw can do: nothing, if its input is refused, or draw. -/
inductive Draws (d : Dashboard) (labels : List String) (values : List Float) (key : String) :
    Except ChartError Nat → Dashboard → Prop where
  | refused {e} (hc : d.checkDraw labels values key = .error e) :
    Draws d labels values key (.error e) d
  | came {texts series target due}
    (hc : d.checkDraw labels values key = .ok (texts, series, target))
    (hd : d.now.add? d.config.animator.clearAfter = some due) :
    Draws d labels values key (.ok (d.lastGeneration key + 1)) (d.drawn key texts series target due)

section

variable {labels : List String} {values : List Float} {key : String}
  {outcome : Except ChartError Nat}

theorem result_draw_of_error {e : ChartError} (h : d.checkDraw labels values key = .error e) :
    (d.draw labels values key).result = .ok (.error e, d) := by
  unfold draw
  rw [h]
  rfl

theorem result_draw_of_ok {texts : LabelSet} {series : Series} {target : ChartTarget}
    (h : d.checkDraw labels values key = .ok (texts, series, target)) :
    (d.draw labels values key).result = .ok (outcome, d') ↔
      ∃ due, d.now.add? d.config.animator.clearAfter = some due ∧
        outcome = .ok (d.lastGeneration key + 1) ∧ d' = d.drawn key texts series target due := by
  unfold draw
  rw [h]
  simp only [Work.result_bind_eq_ok, result_after_eq_ok]
  constructor
  · intro hex
    obtain ⟨_, ⟨due, hd, rfl⟩, _, -, ho⟩ := hex
    cases ho
    exact ⟨due, hd, rfl, rfl⟩
  · intro hex
    obtain ⟨due, hd, rfl, rfl⟩ := hex
    exact ⟨_, ⟨due, hd, rfl⟩, (), rfl, rfl⟩

theorem draws_of_draw (h : (d.draw labels values key).result = .ok (outcome, d')) :
    d.Draws labels values key outcome d' := by
  cases hc : d.checkDraw labels values key with
  | error e =>
    rw [result_draw_of_error hc] at h
    cases h
    exact .refused hc
  | ok found =>
    obtain ⟨texts, series, target⟩ := found
    obtain ⟨due, hd, rfl, rfl⟩ := (result_draw_of_ok hc).1 h
    exact .came hc hd

theorem Draws.result (h : d.Draws labels values key outcome d') :
    (d.draw labels values key).result = .ok (outcome, d') := by
  cases h with
  | refused hc => exact result_draw_of_error hc
  | came hc hd => exact (result_draw_of_ok hc).2 ⟨_, hd, rfl, rfl⟩

end

/-! ## Tasks that come too late -/

/-- Has the dashboard moved on from what the task is about?  Running it then does nothing.  A redraw
is about whatever is mounted, so it never comes too late. -/
def Stale (d : Dashboard) : Task → Prop
  | .clearAnimation key generation =>
    ∀ target, d.charts.get? key = some target → target.root.generation ≠ generation
  | .redraw .. => False
  | .autoIdle generation => generation ≠ d.loader.generation
  | .loadingTick session => d.sessions.get? session = none

/-- A task that comes too late changes nothing. -/
theorem result_run_of_stale (h : d.Stale task) : (d.run task).result = .ok d := by
  cases task with
  | clearAnimation key generation =>
    show (d.clearAnimation key generation).result = .ok d
    unfold clearAnimation
    cases hc : d.charts.get? key with
    | none => rfl
    | some target =>
      have hne : target.root.generation ≠ generation := h target hc
      simp only [ChartRoot.finishAnimation, if_neg hne]
      rfl
  | redraw key labels values => exact h.elim
  | autoIdle generation =>
    have hne : generation ≠ d.loader.generation := h
    show (d.autoIdle generation).result = .ok d
    unfold autoIdle Loader.autoIdle?
    rw [if_neg hne]
    rfl
  | loadingTick session =>
    have hn : d.sessions.get? session = none := h
    show (d.tickLoadingBar session).result = .ok d
    unfold tickLoadingBar
    rw [hn]
    rfl

theorem result_run_clearAnimation {key : String} {target : ChartTarget}
    (h : d.charts.get? key = some target) :
    (d.run (.clearAnimation key target.root.generation)).result =
      .ok { d with charts := d.charts.insert key target.still } := by
  show (d.clearAnimation key target.root.generation).result = _
  unfold clearAnimation
  rw [h]
  simp only [ChartRoot.finishAnimation, if_true]
  rfl

theorem result_run_autoIdle (d : Dashboard) :
    (d.run (.autoIdle d.loader.generation)).result = .ok (d.withLoader .idle) := by
  show (d.autoIdle d.loader.generation).result = _
  unfold autoIdle Loader.autoIdle?
  rw [if_pos rfl]
  rfl

theorem result_run_loadingTick {session : Nat} {bar next : LoadingBar}
    (hb : d.sessions.get? session = some bar)
    (hk : bar.tick d.config.barTiming = (some delay, next)) :
    (d.run (.loadingTick session)).result = .ok d' ↔
      ∃ due, d.now.add? delay = some due ∧
        d' = { d with sessions := d.sessions.insert session next }.push due
          (.loadingTick session) := by
  show (d.tickLoadingBar session).result = _ ↔ _
  unfold tickLoadingBar
  rw [hb]
  simp only [hk]
  exact result_after_eq_ok

theorem result_run_lastTick {session : Nat} {bar next : LoadingBar}
    (hb : d.sessions.get? session = some bar)
    (hk : bar.tick d.config.barTiming = (none, next)) :
    (d.run (.loadingTick session)).result =
      .ok { d with sessions := d.sessions.erase session } := by
  show (d.tickLoadingBar session).result = _
  unfold tickLoadingBar
  rw [hb]
  simp only [hk]
  rfl

/-! ## Running a task -/

/-- All that running a task can do. -/
inductive Ran (d : Dashboard) : Task → Dashboard → Prop where
  | stale {task : Task} (hs : d.Stale task) : Ran d task d
  | clear {key target} (hc : d.charts.get? key = some target) :
    Ran d (.clearAnimation key target.root.generation)
      { d with charts := d.charts.insert key target.still }
  | redraw {labels values key outcome} {d' : Dashboard} (h : d.Draws labels values key outcome d') :
    Ran d (.redraw key labels values) d'
  | autoIdle : Ran d (.autoIdle d.loader.generation) (d.withLoader .idle)
  | tick {session bar next due} {delay : Duration} (hb : d.sessions.get? session = some bar)
    (hk : bar.tick d.config.barTiming = (some delay, next)) (hd : d.now.add? delay = some due) :
    Ran d (.loadingTick session)
      ({ d with sessions := d.sessions.insert session next }.push due (.loadingTick session))
  | lastTick {session bar next} (hb : d.sessions.get? session = some bar)
    (hk : bar.tick d.config.barTiming = (none, next)) :
    Ran d (.loadingTick session) { d with sessions := d.sessions.erase session }

theorem ran_of_run (h : (d.run task).result = .ok d') : d.Ran task d' := by
  by_cases hs : d.Stale task
  · rw [result_run_of_stale hs] at h
    cases h
    exact .stale hs
  cases task with
  | clearAnimation key generation =>
    simp only [Stale, Classical.not_forall, Classical.not_not] at hs
    obtain ⟨target, hc, rfl⟩ := hs
    rw [result_run_clearAnimation hc] at h
    cases h
    exact .clear hc
  | redraw key labels values =>
    obtain ⟨⟨outcome, d₁⟩, hd, he⟩ := Work.result_bind_eq_ok.1 h
    cases he
    exact .redraw (draws_of_draw hd)
  | autoIdle generation =>
    obtain rfl := Classical.not_not.1 hs
    rw [result_run_autoIdle] at h
    cases h
    exact .autoIdle
  | loadingTick session =>
    obtain ⟨bar, hb⟩ := Option.ne_none_iff_exists'.1 hs
    cases hk : bar.tick d.config.barTiming with
    | mk wait next =>
      cases wait with
      | none =>
        rw [result_run_lastTick hb hk] at h
        cases h
        exact .lastTick hb hk
      | some delay =>
        obtain ⟨due, hd, rfl⟩ := (result_run_loadingTick hb hk).1 h
        exact .tick hb hk hd

/-! ## The clock -/

theorem Draws.now {labels : List String} {values : List Float} {key : String}
    {outcome : Except ChartError Nat} (h : d.Draws labels values key outcome d') :
    d'.now = d.now := by
  cases h <;> rfl

/-- Running a task leaves the clock alone. -/
theorem Ran.now (h : d.Ran task d') : d'.now = d.now := by
  cases h with
  | redraw hd => exact hd.now
  | stale | clear | tick | lastTick => rfl
  | autoIdle => exact now_withLoader d .idle

end Dashboard

end Sparkboard
