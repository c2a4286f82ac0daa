import Sparkboard.Proofs.Chart.Checks
import Sparkboard.Proofs.Dashboard.ChartSteps
/-!
# Draws are all or nothing

A draw goes through its checks before it touches anything, so either it is refused, for the first
check that fails, and the dashboard is the one it was; or it comes off, and only its chart, the
number of its draws and what waits are other than before (`draw_all_or_nothing`).
-/

namespace Sparkboard

namespace Dashboard

variable {d d' : Dashboard} {labels : List String} {values : List Float} {key : String}
  {texts : LabelSet} {series : Series} {target : ChartTarget} {due : Duration} {e : ChartError}

/-- Does a draw pass every check? -/
structure Accepts (d : Dashboard) (labels : List String) (values : List Float) (key : String) :
    Prop where
  drawable : Drawable labels values
  mounted : (d.target? key).isSome

/-- The first check that a draw fails: the chart is looked for when labels and values are in
order. -/
inductive Refuses (d : Dashboard) (labels : List String) (values : List Float) (key : String) :
    ChartError → Prop where
  | data {e : ChartError} (hf : Fault labels values e) : Refuses d labels values key e
  | target (hd : Drawable labels values) (hm : d.target? key = none) :
    Refuses d labels values key (.missingTarget key)

/-- Is the dashboard the one before, but for the draw `generation` of one chart and the clear that
waits for it? -/
structure DrewOnly (key : String) (generation : Nat) (d d' : Dashboard) : Prop where
  config : d'.config = d.config
  board : d'.board = d.board
  loader : d'.loader = d.loader
  sessions : d'.sessions = d.sessions
  started : d'.started = d.started
  charts : ∀ other, other ≠ key → d'.target? other = d.target? other
  chart : ∃ target, d'.target? key = some target ∧ target.root.generation = generation
  counts : ∀ other, other ≠ key → d'.generations.get? other = d.generations.get? other
  count : d'.generations.get? key = some generation
  now : d'.now = d.now
  scheduled : d'.timeline.scheduled = d.timeline.scheduled + 1
  pending : ∃ due, d.now.add? d.config.animator.clearAfter = some due ∧
    d'.timeline.pending.Perm
      (⟨due, d.timeline.scheduled, .clearAnimation key generation⟩ :: d.timeline.pending)

/-! ## The checks -/

theorem accepts_iff :
    d.Accepts labels values key ↔
      ∃ texts series target, d.checkDraw labels values key = .ok (texts, series, target) := by
  simp only [checkDraw_eq_ok_iff]
  constructor
  · intro h
    obtain ⟨⟨texts, htexts⟩, ⟨series, hseries⟩⟩ := drawable_iff.1 h.drawable
    obtain ⟨target, htarget⟩ := Option.isSome_iff_exists.1 h.mounted
    exact ⟨texts, series, target, htexts, hseries, htarget⟩
  · intro hex
    obtain ⟨texts, series, target, htexts, hseries, htarget⟩ := hex
    exact ⟨drawable_iff.2 ⟨⟨texts, htexts⟩, ⟨series, hseries⟩⟩,
      Option.isSome_iff_exists.2 ⟨target, htarget⟩⟩

/-- The check answers the first reason to refuse. -/
theorem refuses_iff :
    d.Refuses labels values key e ↔ d.checkDraw labels values key = .error e := by
  have hcases : d.Refuses labels values key e ↔ Fault labels values e ∨
      Drawable labels values ∧ d.target? key = none ∧ e = .missingTarget key := by
    constructor
    · intro h
      cases h with
      | data hf => exact .inl hf
      | target hd hm => exact .inr ⟨hd, hm, rfl⟩
    · intro h
      obtain hf | ⟨hd, hm, rfl⟩ := h
      · exact .data hf
      · exact .target hd hm
  rw [hcases, fault_iff, drawable_iff]
  unfold checkDraw target?
  cases LabelSet.ofList labels with
  | error e' => simp [bind, Except.bind]
  | ok texts =>
    cases Series.ofList values with
    | error e' => simp [bind, Except.bind]
    | ok series =>
      cases d.charts.get? key with
      | none => simp [bind, Except.bind, throw, throwThe, MonadExceptOf.throw, eq_comm]
      | some target => simp [bind, Except.bind, pure, Except.pure]

theorem accepts_or_refuses (d : Dashboard) (labels : List String) (values : List Float)
    (key : String) : d.Accepts labels values key ∨ ∃ e, d.Refuses labels values key e := by
  simp only [accepts_iff, refuses_iff]
  cases d.checkDraw labels values key with
  | error e => exact .inr ⟨e, rfl⟩
  | ok found => exact .inl ⟨found.1, found.2.1, found.2.2, rfl⟩

/-! ## What a draw leaves alone -/

theorem drewOnly_drawn (hd : d.now.add? d.config.animator.clearAfter = some due) :
    DrewOnly key (d.lastGeneration key + 1) d (d.drawn key texts series target due) where
  config := rfl
  board := rfl
  loader := rfl
  sessions := rfl
  started := rfl
  charts other hne := by
    show (d.charts.insert key _).get? other = _
    rw [Table.get?_insert, if_neg hne]
    rfl
  chart := ⟨_, get?_drawn texts series target due, rfl⟩
  counts other hne := by
    show (d.generations.insert key _).get? other = _
    rw [Table.get?_insert, if_neg hne]
  count := by
    show (d.generations.insert key _).get? key = _
    rw [Table.get?_insert, if_pos rfl]
  now := rfl
  scheduled := rfl
  pending := ⟨due, hd, Timeline.pending_push ..⟩

/-- A draw comes off exactly if there are four labels and four values, each value is finite and not
negative, and a chart is mounted under the key.  Otherwise it answers the first of these that fails,
in this order, and leaves the whole dashboard as it was.  A draw that comes off is the next of its
key, and touches nothing but its chart, the number of its draws, and what waits: one clear more. -/
theorem draw_all_or_nothing (d : Dashboard) (labels : List String) (values : List Float)
    (key : String) (hroom : ∃ due, d.now.add? d.config.animator.clearAfter = some due) :
    ((∃ generation d', (d.draw labels values key).result = .ok (.ok generation, d')) ↔
      d.Accepts labels values key) ∧
    (∀ generation d', (d.draw labels values key).result = .ok (.ok generation, d') →
      generation = d.lastGeneration key + 1 ∧ DrewOnly key generation d d') ∧
    (∀ e d', (d.draw labels values key).result = .ok (.error e, d') ↔
      d.Refuses labels values key e ∧ d' = d) ∧
    (d.Accepts labels values key ∨ ∃ e, d.Refuses labels values key e) := by
  obtain ⟨due, hdue⟩ := hroom
  refine ⟨?_, ?_, ?_, accepts_or_refuses d labels values key⟩
  · rw [accepts_iff]
    constructor
    · intro hex
      obtain ⟨generation, d', h⟩ := hex
      cases draws_of_draw h with
      | came hc => exact ⟨_, _, _, hc⟩
    · intro hex
      obtain ⟨texts, series, target, hc⟩ := hex
      exact ⟨_, _, (result_draw_of_ok hc).2 ⟨due, hdue, rfl, rfl⟩⟩
  · intro generation d' h
    cases draws_of_draw h with
    | came hc hd => exact ⟨rfl, drewOnly_drawn hd⟩
  · intro e d'
    rw [refuses_iff]
    constructor
    · intro h
      cases draws_of_draw h with
      | refused hc => exact ⟨hc, rfl⟩
    · intro h
      obtain ⟨hc, rfl⟩ := h
      exact result_draw_of_error hc

def halfMounted : Dashboard := ((new .default).mount sshKey .fresh).2

/-- A negative zero can be drawn.  Of a value that is not a number and a chart that is missing the
value is reported, and nothing has changed. -/
theorem draw_halfMounted :
    (∃ generation d', (halfMounted.draw ["a", "b", "c", "d"] [0.0, -0.0, 3.0, 4.0] sshKey).result =
        .ok (.ok generation, d') ∧ DrewOnly sshKey 1 halfMounted d') ∧
      ∃ v, (halfMounted.draw ["a", "b", "c", "d"] [0.0, 0.0 / 0.0, -1.0, 4.0] signsKey).result =
        .ok (.error (.unplottable 1 v), halfMounted) := by
  have hroom : ∃ due, halfMounted.now.add? halfMounted.config.animator.clearAfter = some due :=
    ⟨_, rfl⟩
  obtain ⟨hcomes, hdrew, -, -⟩ := draw_all_or_nothing halfMounted ["a", "b", "c", "d"]
    [0.0, -0.0, 3.0, 4.0] sshKey hroom
  obtain ⟨-, -, hrefused, -⟩ := draw_all_or_nothing halfMounted ["a", "b", "c", "d"]
    [0.0, 0.0 / 0.0, -1.0, 4.0] signsKey hroom
  refine ⟨?_, 0.0 / 0.0, (hrefused _ _).2 ⟨.data (.value rfl rfl rfl ?_ ?_), rfl⟩⟩
  · obtain ⟨generation, d', h⟩ := hcomes.2 ⟨⟨rfl, rfl, by decide +kernel⟩, rfl⟩
    obtain ⟨rfl, honly⟩ := hdrew generation d' h
    exact ⟨_, d', h, honly⟩
  · decide +kernel
  · intro i hi w hw
    obtain rfl : i = 0 := by omega
    cases hw
    decide +kernel

end Dashboard

end Sparkboard
