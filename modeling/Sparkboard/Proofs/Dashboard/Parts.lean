import Sparkboard.Proofs.Dashboard.ChartSteps
/-!
# The parts of a dashboard

The chart of a key, the loader and the loading bars are the parts of a dashboard.  Each part has a
state and tasks of its own, and `Agree part d e` says that `d` and `e` are the same as far as the
part is concerned.  What is about other parts is not seen from it (`Draws.agree`, `Ran.agree`), and
what is about the part does the same to any two dashboards that agree on it (`Agree.draw`,
`Agree.run`).  Which numbers the tasks have is seen from no part.
-/

namespace Sparkboard

/-- A part of a dashboard. -/
inductive Part where
  /-- The chart of a key, mounted or not. -/
  | chart (key : String)
  | loader
  /-- All loading bars. -/
  | bars
  deriving DecidableEq

def Task.part : Task → Part
  | .clearAnimation key _ | .redraw key _ _ => .chart key
  | .autoIdle _ => .loader
  | .loadingTick _ => .bars

/-- Is the task about the part? -/
def Part.owns (part : Part) (task : Task) : Bool := part = task.part

/-- All that a dashboard holds on a part, its tasks apart. -/
inductive PartState where
  | chart (target : Option ChartTarget) (drawn : Nat)
  | loader (loader : Loader) (board : FlagBoard)
  | bars (sessions : Table Nat LoadingBar) (started : Nat)

namespace Dashboard

variable {d d' e : Dashboard} {part : Part} {task : Task} {entry : Entry Task}
  {timeline : Timeline Task}

def stateOf (d : Dashboard) : Part → PartState
  | .chart key => .chart (d.charts.get? key) (d.lastGeneration key)
  | .loader => .loader d.loader d.board
  | .bars => .bars d.sessions d.started

/-- Are two dashboards the same as far as a part is concerned? -/
structure Agree (part : Part) (d e : Dashboard) : Prop where
  config : e.config = d.config
  state : e.stateOf part = d.stateOf part
  agenda : e.timeline.agenda part.owns = d.timeline.agenda part.owns

theorem Agree.refl (part : Part) (d : Dashboard) : Agree part d d := ⟨rfl, rfl, rfl⟩

theorem Agree.symm (h : Agree part d e) : Agree part e d :=
  ⟨h.config.symm, h.state.symm, h.agenda.symm⟩

theorem Agree.trans (h : Agree part d d') (h' : Agree part d' e) : Agree part d e :=
  ⟨h'.config.trans h.config, h'.state.trans h.state, h'.agenda.trans h.agenda⟩

theorem Agree.dues (h : Agree part d e) (ho : part.owns task = true) :
    e.timeline.dues task = d.timeline.dues task := by
  have hkind (other : Task) (hother : decide (other = task) = true) : part.owns other = true := by
    rw [of_decide_eq_true hother, ho]
  unfold Timeline.dues
  rw [Timeline.agenda_filter hkind, Timeline.agenda_filter hkind, h.agenda]

/-- The clock and the tasks are not part of the state of any part. -/
theorem stateOf_timeline (d : Dashboard) (timeline : Timeline Task) (part : Part) :
    { d with timeline }.stateOf part = d.stateOf part := by
  cases part <;> rfl

theorem agree_waited (part : Part) (d : Dashboard) (moment : Duration) :
    Agree part d (d.waited moment) :=
  ⟨rfl, stateOf_timeline d _ part, rfl⟩

/-! ## What is about other parts -/

theorem agree_push (due : Duration) (ho : part.owns task = false) :
    Agree part d (d.push due task) :=
  ⟨rfl, stateOf_timeline d _ part, Timeline.agenda_push_other ho⟩

theorem agree_pop (hp : d.timeline.pop? = some (entry, timeline))
    (ho : part.owns entry.task = false) : Agree part d { d with timeline } :=
  ⟨rfl, stateOf_timeline d _ part, Timeline.agenda_pop_other hp ho⟩

theorem agree_charts {key : String} {charts : Table String ChartTarget}
    (hc : ∀ k, k ≠ key → charts.get? k = d.charts.get? k) (hk : part ≠ .chart key) :
    Agree part d { d with charts } := by
  refine ⟨rfl, ?_, rfl⟩
  cases part with
  | chart k =>
    have hne : k ≠ key := fun heq => hk (heq ▸ rfl)
    show PartState.chart (charts.get? k) _ = _
    rw [hc k hne]
    rfl
  | loader | bars => rfl

theorem agree_insert {key : String} (target : ChartTarget) (hk : part ≠ .chart key) :
    Agree part d { d with charts := d.charts.insert key target } :=
  agree_charts (fun k hne => by rw [Table.get?_insert, if_neg hne]) hk

theorem agree_mount {key : String} (target : ChartTarget) (hk : part ≠ .chart key) :
    Agree part d (d.mount key target).2 :=
  agree_insert _ hk

theorem agree_unmount {key : String} (hk : part ≠ .chart key) :
    Agree part d (d.unmount key).2 :=
  agree_charts (fun k hne => by rw [Table.get?_erase, if_neg hne]) hk

theorem agree_withLoader (state : LoaderState) (hl : part ≠ .loader) :
    Agree part d (d.withLoader state) := by
  unfold withLoader
  refine ⟨rfl, ?_, rfl⟩
  cases part with
  | loader => exact absurd rfl hl
  | chart | bars => rfl

theorem agree_bars {sessions : Table Nat LoadingBar} {started : Nat} (hb : part ≠ .bars) :
    Agree part d { d with sessions, started } := by
  refine ⟨rfl, ?_, rfl⟩
  cases part with
  | bars => exact absurd rfl hb
  | chart | loader => rfl

theorem Draws.agree {labels : List String} {values : List Float} {key : String}
    {outcome : Except ChartError Nat} (h : d.Draws labels values key outcome d')
    (hk : part ≠ .chart key) : Agree part d d' := by
  cases h with
  | refused => exact .refl part d
  | @came texts series target due =>
    have ho : part.owns (.clearAnimation key (d.lastGeneration key + 1)) = false :=
      decide_eq_false hk
    refine ⟨rfl, ?_, Timeline.agenda_push_other ho⟩
    cases part with
    | chart k =>
      have hne : key ≠ k := fun heq => hk (heq ▸ rfl)
      have hsame := same_drawn (d := d) hne texts series target due
      show PartState.chart _ _ = _
      rw [hsame.chart, hsame.count]
      rfl
    | loader | bars => rfl

theorem Ran.agree (h : d.Ran task d') (ho : part.owns task = false) : Agree part d d' := by
  have hne : part ≠ task.part := of_decide_eq_false ho
  cases h with
  | stale => exact .refl part d
  | clear => exact agree_insert _ hne
  | redraw hd => exact hd.agree hne
  | autoIdle => exact agree_withLoader _ hne
  | tick => exact (agree_bars hne).trans (agree_push _ ho)
  | lastTick => exact agree_bars hne

/-! ## What is about the part -/

theorem Agree.push (h : Agree part d e) (hd : d.timeline.Sound) (he : e.timeline.Sound)
    (due : Duration) (task : Task) : Agree part (d.push due task) (e.push due task) := by
  cases ho : part.owns task with
  | false => exact ((agree_push due ho).symm.trans h).trans (agree_push due ho)
  | true =>
    refine ⟨h.config, ?_, ?_⟩
    · have hstate := h.state
      rw [← stateOf_timeline d (d.timeline.push due task) part,
        ← stateOf_timeline e (e.timeline.push due task) part] at hstate
      exact hstate
    · show (e.timeline.push due task).agenda _ = (d.timeline.push due task).agenda _
      rw [hd.agenda_push ho, he.agenda_push ho, h.agenda]

/-- The next task of a part is the same and due at the same time. -/
theorem Agree.pop (h : Agree part d e) (hp : d.timeline.pop? = some (entry, timeline))
    (ho : part.owns entry.task = true) {other : Entry Task} {rest : Timeline Task}
    (hp' : e.timeline.pop? = some (other, rest)) (ho' : part.owns other.task = true) :
    other.plan = entry.plan ∧ Agree part { d with timeline } { e with timeline := rest } := by
  have hagenda := h.agenda
  rw [Timeline.agenda_pop_self hp ho, Timeline.agenda_pop_self hp' ho', List.cons.injEq] at hagenda
  exact ⟨hagenda.1, h.config,
    (stateOf_timeline e _ part).trans (h.state.trans (stateOf_timeline d _ part).symm), hagenda.2⟩

theorem Agree.charts {key : String} {charts charts' : Table String ChartTarget}
    (h : Agree (.chart key) d e) (hc : charts'.get? key = charts.get? key) :
    Agree (.chart key) { d with charts } { e with charts := charts' } := by
  refine ⟨h.config, ?_, h.agenda⟩
  show PartState.chart (charts'.get? key) (e.lastGeneration key) =
    .chart (charts.get? key) (d.lastGeneration key)
  rw [hc, (PartState.chart.inj h.state).2]

/-- Drawing a chart comes to the same on dashboards that agree on it. -/
theorem Agree.draw {labels : List String} {values : List Float} {key : String}
    {outcome : Except ChartError Nat} (h : Agree (.chart key) d e) (hd : d.timeline.Sound)
    (he : e.timeline.Sound) (hn : e.now = d.now)
    (hr : (d.draw labels values key).result = .ok (outcome, d')) :
    ∃ e', (e.draw labels values key).result = .ok (outcome, e') ∧ Agree (.chart key) d' e' := by
  obtain ⟨hchart, hcount⟩ := PartState.chart.inj h.state
  have hcheck : e.checkDraw labels values key = d.checkDraw labels values key :=
    checkDraw_congr hchart
  cases draws_of_draw hr with
  | refused hc =>
    rw [← hcheck] at hc
    exact ⟨e, result_draw_of_error hc, h⟩
  | @came texts series target due hc hdue =>
    rw [← hcheck] at hc
    rw [← hn, ← h.config] at hdue
    refine ⟨e.drawn key texts series target due,
      (result_draw_of_ok hc).2 ⟨due, hdue, by rw [hcount], rfl⟩, h.config, ?_, ?_⟩
    · have hshown : e.shown key texts series target = d.shown key texts series target := by
        unfold shown
        rw [hcount, h.config]
      show PartState.chart _ _ = .chart _ _
      rw [get?_drawn, get?_drawn, lastGeneration_drawn, lastGeneration_drawn, hshown, hcount]
    · have ho (generation) : (Part.chart key).owns (.clearAnimation key generation) = true :=
        decide_eq_true rfl
      show (e.timeline.push _ _).agenda _ = (d.timeline.push _ _).agenda _
      rw [hd.agenda_push (ho _), he.agenda_push (ho _), h.agenda, hcount]

theorem Agree.withLoader (h : Agree .loader d e) (state : LoaderState) :
    Agree .loader (d.withLoader state) (e.withLoader state) := by
  obtain ⟨hloader, hboard⟩ := PartState.loader.inj h.state
  unfold Dashboard.withLoader
  refine ⟨h.config, ?_, h.agenda⟩
  show PartState.loader _ _ = PartState.loader _ _
  rw [hloader, hboard]

theorem Agree.withBars (h : Agree .bars d e) (sessions : Table Nat LoadingBar) (started : Nat) :
    Agree .bars { d with sessions, started } { e with sessions, started } :=
  ⟨h.config, rfl, h.agenda⟩

/-- A task of a part comes to the same on dashboards that agree on it. -/
theorem Agree.run (h : Agree part d e) (hd : d.timeline.Sound) (he : e.timeline.Sound)
    (hn : e.now = d.now) (ho : part.owns task = true) (hr : (d.run task).result = .ok d') :
    ∃ e', (e.run task).result = .ok e' ∧ Agree part d' e' := by
  obtain rfl : part = task.part := of_decide_eq_true ho
  cases task with
  | clearAnimation key generation =>
    have hchart := (PartState.chart.inj h.state).1
    cases ran_of_run hr with
    | stale hs =>
      refine ⟨e, result_run_of_stale ?_, h⟩
      intro target hc
      rw [hchart] at hc
      exact hs target hc
    | @clear _ target hc =>
      rw [← hchart] at hc
      refine ⟨_, result_run_clearAnimation hc, h.charts ?_⟩
      rw [Table.get?_insert, if_pos rfl, Table.get?_insert, if_pos rfl]
  | redraw key labels values =>
    obtain ⟨⟨outcome, d₁⟩, hdraw, hres⟩ := Work.result_bind_eq_ok.1 hr
    cases hres
    obtain ⟨e', hdraw', h'⟩ := h.draw hd he hn hdraw
    exact ⟨e', Work.result_bind_eq_ok.2 ⟨_, hdraw', rfl⟩, h'⟩
  | autoIdle generation =>
    have hloader := (PartState.loader.inj h.state).1
    cases ran_of_run hr with
    | stale hs =>
      refine ⟨e, result_run_of_stale ?_, h⟩
      show generation ≠ e.loader.generation
      rw [hloader]
      exact hs
    | autoIdle =>
      rw [← hloader]
      exact ⟨_, result_run_autoIdle e, h.withLoader .idle⟩
  | loadingTick session =>
    obtain ⟨hsessions, hstarted⟩ := PartState.bars.inj h.state
    cases ran_of_run hr with
    | stale hs =>
      refine ⟨e, result_run_of_stale ?_, h⟩
      show e.sessions.get? session = none
      rw [hsessions]
      exact hs
    | @tick _ bar next due delay hb hk hdue =>
      rw [← hsessions] at hb
      rw [← h.config] at hk
      rw [← hn] at hdue
      refine ⟨_, (result_run_loadingTick hb hk).2 ⟨due, hdue, rfl⟩, ?_⟩
      have hbars := h.withBars (d.sessions.insert session next) d.started
      rw [← hsessions, ← hstarted] at hbars ⊢
      exact hbars.push hd he due _
    | lastTick hb hk =>
      rw [← hsessions] at hb
      rw [← h.config] at hk
      refine ⟨_, result_run_lastTick hb hk, ?_⟩
      have hbars := h.withBars (d.sessions.erase session) d.started
      rw [← hsessions, ← hstarted] at hbars ⊢
      exact hbars

end Dashboard

end Sparkboard
