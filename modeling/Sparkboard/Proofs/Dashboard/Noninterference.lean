import Sparkboard.Proofs.Dashboard.Concern
import Sparkboard.Proofs.Dashboard.TimelineRuns
/-!
# No part interferes with another

If from a run all operations are left out that are not addressed to a part, nothing changes for this
part: after each operation that is left it looks the same, and the operation has the same answer
(`sightings_filter`).

The two runs are compared step by step.  The dashboard of the shorter run mirrors the other one
(`Mirrors`): they agree on the part, and the shorter run is alone with it, so that the only other
tasks that it ever has are redraws of charts that are not mounted, and these come to nothing.  While
time passes the two dashboards run different tasks, but those of the part come due in the same order
and at the same times, and what comes between them is not seen from the part (`Drains.mirrored`).
-/

namespace Sparkboard

def BatchReport.about (part : Part) (report : BatchReport) : BatchReport :=
  ⟨report.drawn.filter fun x => part = .chart x.1, report.failed.filter fun x => part = .chart x.1⟩

/-- A report is told of a draw by whoever asks about the chart. -/
theorem BatchReport.about_cons (part : Part) (report : BatchReport) (key : String)
    (outcome : Except ChartError Nat) :
    (report.cons key outcome).about part =
      if part = .chart key then (report.about part).cons key outcome else report.about part := by
  unfold cons about
  by_cases hk : part = .chart key
  · rw [if_pos hk]
    cases outcome <;> simp [hk]
  · rw [if_neg hk]
    cases outcome <;> simp [hk]

/-- What an answer says on a part.  Which tasks were run is about all parts. -/
def Answer.about (part : Part) : Answer → Answer
  | .batch report => .batch (report.about part)
  | .ran _ => .nothing
  | answer => answer

/-- What can be seen of a part. -/
inductive Sight where
  | chart (target : Option ChartTarget)
  /-- The state of the loader and the elements that are shown. -/
  | loader (state : LoaderState) (shown : List String)
  | bars (sessions : Table Nat LoadingBar)

namespace Dashboard

def sight (d : Dashboard) : Part → Sight
  | .chart key => .chart (d.target? key)
  | .loader => .loader d.loader.state (d.board.flagged shownFlag)
  | .bars => .bars d.sessions

/-- What is heard and seen of a part in the course of operations: after each that is addressed to
it, the answer and how it looks. -/
def sightings (part : Part) (d : Dashboard) : List Operation → List (Answer × Sight)
  | [] => []
  | op :: ops =>
    match (d.perform op).result with
    | .ok (answer, d') =>
      if op.concerns part then (answer.about part, d'.sight part) :: d'.sightings part ops
      else d'.sightings part ops
    | .error _ => []

variable {part : Part} {d d₁ d' e e₁ e' : Dashboard} {entry : Entry Task} {task : Task}
  {timeline : Timeline Task} {entries : List (Entry Task)} {limit : Duration} {key : String}
  {labels : List String} {values : List Float} {outcome : Except ChartError Nat}

theorem Agree.sight (h : Agree part d e) : e.sight part = d.sight part := by
  have hstate := h.state
  cases part with
  | chart key =>
    show Sight.chart (e.charts.get? key) = .chart (d.charts.get? key)
    rw [(PartState.chart.inj hstate).1]
  | loader =>
    obtain ⟨hloader, hboard⟩ := PartState.loader.inj hstate
    unfold Dashboard.sight
    rw [hloader, hboard]
  | bars =>
    unfold Dashboard.sight
    rw [(PartState.bars.inj hstate).1]

/-! ## A part alone -/

/-- Is there nothing but the part?  Batches leave redraws behind for charts that are not mounted. -/
structure Alone (part : Part) (d : Dashboard) : Prop where
  unmounted : ∀ key, part ≠ .chart key → d.charts.get? key = none
  tasks : ∀ e ∈ d.timeline.pending,
    part.owns e.task = true ∨ ∃ key labels values, e.task = .redraw key labels values

theorem alone_new (part : Part) (config : Config) : Alone part (new config) where
  unmounted _ _ := rfl
  tasks _ he := nomatch he

theorem Alone.part_eq (h : Alone part d) {target : ChartTarget}
    (hc : d.charts.get? key = some target) : part = .chart key := by
  refine Classical.not_not.1 fun hne => ?_
  rw [h.unmounted key hne] at hc
  cases hc

theorem Alone.push (h : Alone part d) (due : Duration)
    (ht : part.owns task = true ∨ ∃ key labels values, task = .redraw key labels values) :
    Alone part (d.push due task) where
  unmounted := h.unmounted
  tasks := by
    intro e he
    rcases Timeline.mem_push.1 he with rfl | he
    · exact ht
    · exact h.tasks e he

theorem Alone.pop (h : Alone part d) (hp : d.timeline.pop? = some (entry, timeline)) :
    Alone part { d with timeline } where
  unmounted := h.unmounted
  tasks e he := h.tasks e (Timeline.mem_of_mem_pop hp he)

theorem Alone.insert (h : Alone (.chart key) d) (target : ChartTarget) :
    Alone (.chart key) { d with charts := d.charts.insert key target } where
  unmounted := by
    intro k hk
    have hne : k ≠ key := fun heq => hk (heq ▸ rfl)
    show (d.charts.insert key target).get? k = none
    rw [Table.get?_insert, if_neg hne]
    exact h.unmounted k hk
  tasks := h.tasks

theorem Alone.erase (h : Alone part d) (key : String) :
    Alone part { d with charts := d.charts.erase key } where
  unmounted := by
    intro k hk
    show (d.charts.erase key).get? k = none
    rw [Table.get?_erase, h.unmounted k hk, ite_self]
  tasks := h.tasks

theorem Alone.withLoader (h : Alone part d) (state : LoaderState) :
    Alone part (d.withLoader state) := by
  unfold Dashboard.withLoader
  exact ⟨h.unmounted, h.tasks⟩

theorem Alone.draws (h : Alone part d) (hd : d.Draws labels values key outcome d') :
    Alone part d' := by
  cases hd with
  | refused => exact h
  | @came texts series target due hc =>
    obtain rfl := h.part_eq (get?_of_checkDraw hc)
    have hown : (Part.chart key).owns (.clearAnimation key (d.lastGeneration key + 1)) = true :=
      decide_eq_true rfl
    have hdrawn := (h.insert (d.shown key texts series target)).push due (.inl hown)
    exact ⟨hdrawn.unmounted, hdrawn.tasks⟩

theorem Alone.ran (h : Alone part d) (ho : part.owns task = true) (hran : d.Ran task d') :
    Alone part d' := by
  cases hran with
  | stale => exact h
  | clear hc =>
    obtain rfl := h.part_eq hc
    exact h.insert _
  | redraw hd => exact h.draws hd
  | autoIdle => exact h.withLoader .idle
  | @tick session bar next due =>
    have hpushed := h.push due (.inl ho)
    exact ⟨hpushed.unmounted, hpushed.tasks⟩
  | lastTick => exact ⟨h.unmounted, h.tasks⟩

theorem checkDraw_of_unmounted (hc : d.charts.get? key = none) :
    ∃ e, d.checkDraw labels values key = .error e := by
  cases h : d.checkDraw labels values key with
  | error e => exact ⟨e, rfl⟩
  | ok found =>
    rw [get?_of_checkDraw h] at hc
    cases hc

theorem Alone.result_run (h : Alone part d) (hp : d.timeline.pop? = some (entry, timeline))
    (ho : part.owns entry.task = false) :
    ({ d with timeline }.run entry.task).result = .ok { d with timeline } := by
  rcases h.tasks entry (Timeline.mem_of_pop? hp) with hown | ⟨key, labels, values, ht⟩
  · rw [ho] at hown
    cases hown
  · rw [ht] at ho ⊢
    have hne : part ≠ .chart key := of_decide_eq_false ho
    obtain ⟨e, hc⟩ : ∃ e, { d with timeline }.checkDraw labels values key = .error e :=
      checkDraw_of_unmounted (h.unmounted key hne)
    exact Work.result_bind_eq_ok.2 ⟨_, result_draw_of_error hc, rfl⟩

/-! ## Passing time -/

/-- From `e` to `e₁` tasks are run that come to nothing, until the next one to be run by `limit` is
one of the part. -/
structure Skips (part : Part) (limit : Duration) (e e₁ : Dashboard) : Prop where
  agree : Agree part e e₁
  alone : Alone part e₁
  sound : e₁.timeline.Sound
  owns_next : ∀ entry timeline, e₁.timeline.popDue? limit = some (entry, timeline) →
    part.owns entry.task = true
  drains : ∀ entries e', Drains (·.popDue? limit) e₁ entries e' →
    ∃ entries', Drains (·.popDue? limit) e entries' e'

theorem Alone.exists_skips (h : Alone part e) (hs : e.timeline.Sound) (limit : Duration) :
    ∃ e₁, Skips part limit e e₁ := by
  generalize hpending : e.timeline.pending = pending
  induction pending generalizing e with
  | nil =>
    refine ⟨e, .refl part e, h, hs, ?_, fun entries e' hd => ⟨entries, hd⟩⟩
    intro entry timeline hp
    have hmem := Timeline.mem_of_pop? (Timeline.popDue?_eq_some_iff.1 hp).1
    rw [hpending] at hmem
    cases hmem
  | cons x xs ih =>
    by_cases hnext : ∀ entry timeline, e.timeline.popDue? limit = some (entry, timeline) →
        part.owns entry.task = true
    · exact ⟨e, .refl part e, h, hs, hnext, fun entries e' hd => ⟨entries, hd⟩⟩
    · simp only [Classical.not_forall, Bool.not_eq_true] at hnext
      obtain ⟨entry, timeline, hp, ho⟩ := hnext
      have hpop := (Timeline.popDue?_eq_some_iff.1 hp).1
      have hrest : timeline.pending = xs := by
        have hcons := (Timeline.pop?_eq_some_iff.1 hpop).1
        rw [hpending, List.cons.injEq] at hcons
        exact hcons.2.symm
      obtain ⟨e₁, hskips⟩ := ih (h.pop hpop) (hs.pop hpop) hrest
      refine ⟨e₁, (agree_pop hpop ho).trans hskips.agree, hskips.alone, hskips.sound,
        hskips.owns_next, fun entries e' hd => ?_⟩
      obtain ⟨entries', hd'⟩ := hskips.drains entries e' hd
      exact ⟨_, .run hp (h.result_run hpop ho) hd'⟩

/-- If on one dashboard nothing is due by a moment, then nothing of the part is on another one that
agrees on it. -/
theorem Agree.lt_due (h : Agree part d e) (hs : d.timeline.Sound)
    (hn : d.timeline.popDue? limit = none) (he : entry ∈ e.timeline.pending)
    (ho : part.owns entry.task = true) : limit < entry.due := by
  have hmem : entry.plan ∈ e.timeline.agenda part.owns :=
    Timeline.mem_agenda.2 ⟨entry, he, ho, rfl⟩
  rw [h.agenda] at hmem
  obtain ⟨other, hother, -, hplan⟩ := Timeline.mem_agenda.1 hmem
  have hdue : other.due = entry.due := congrArg Prod.fst hplan
  rw [← hdue]
  exact hs.lt_due (Timeline.popDue?_eq_none_iff.1 hn) other hother

/-- Of two dashboards that agree on the part, one runs what is due by a moment.  Then the other one,
on which the part is alone, does so too, and they still agree. -/
theorem Drains.mirrored (hd : Drains (·.popDue? limit) d entries d') (hs : d.timeline.Sound)
    (hagree : Agree part d e) (hs' : e.timeline.Sound) (halone : Alone part e) :
    ∃ entries' e', Drains (·.popDue? limit) e entries' e' ∧ Agree part d' e' ∧
      Alone part e' := by
  induction hd generalizing e with
  | @done d hn =>
    obtain ⟨e₁, hskips⟩ := halone.exists_skips hs' limit
    have hagree₁ := hagree.trans hskips.agree
    have hnone : e₁.timeline.popDue? limit = none := by
      cases hp : e₁.timeline.popDue? limit with
      | none => rfl
      | some taken =>
        obtain ⟨entry, timeline⟩ := taken
        obtain ⟨hpop, hdue⟩ := Timeline.popDue?_eq_some_iff.1 hp
        have hlt := hagree₁.lt_due hs hn (Timeline.mem_of_pop? hpop)
          (hskips.owns_next entry timeline hp)
        exact absurd hdue (Nat.not_le.2 hlt)
    obtain ⟨entries', hd'⟩ := hskips.drains [] e₁ (.done hnone)
    exact ⟨entries', e₁, hd', hagree₁, hskips.alone⟩
  | @run d d₁ d' entry timeline entries hp hr _ ih =>
    obtain ⟨hpop, hdue⟩ := Timeline.popDue?_eq_some_iff.1 hp
    have hran := ran_of_run hr
    have hs₁ : d₁.timeline.Sound := hran.grows.sound (hs.pop hpop)
    cases ho : part.owns entry.task with
    | false =>
      have hunseen : Agree part d d₁ := (agree_pop hpop ho).trans (hran.agree ho)
      exact ih hs₁ (hunseen.symm.trans hagree) hs' halone
    | true =>
      obtain ⟨e₁, hskips⟩ := halone.exists_skips hs' limit
      have hagree₁ := hagree.trans hskips.agree
      obtain ⟨other, rest, hp'⟩ : ∃ other rest, e₁.timeline.popDue? limit = some (other, rest) := by
        cases hp' : e₁.timeline.popDue? limit with
        | some taken => exact ⟨taken.1, taken.2, rfl⟩
        | none =>
          have hlt := hagree₁.symm.lt_due hskips.sound hp' (Timeline.mem_of_pop? hpop) ho
          exact absurd hdue (Nat.not_le.2 hlt)
      have hpop' := (Timeline.popDue?_eq_some_iff.1 hp').1
      have ho' := hskips.owns_next other rest hp'
      obtain ⟨hplan, hpopped⟩ := hagree₁.pop hpop ho hpop' ho'
      obtain ⟨hsame, htask⟩ := Prod.mk.inj hplan
      -- both clocks show the time when the task is due
      have hnow : rest.now = timeline.now := by
        rw [hs.now_pop hpop, hskips.sound.now_pop hpop', hsame]
      obtain ⟨e₂, hr', hagree₂⟩ :=
        hpopped.run (hs.pop hpop) (hskips.sound.pop hpop') hnow ho hr
      have hs₂ : e₂.timeline.Sound := (ran_of_run hr').grows.sound (hskips.sound.pop hpop')
      have halone₂ : Alone part e₂ := (hskips.alone.pop hpop').ran ho (ran_of_run hr')
      obtain ⟨entries', e', hd', hend⟩ := ih hs₁ hagree₂ hs₂ halone₂
      rw [← htask] at hr'
      obtain ⟨entries'', hd''⟩ := hskips.drains _ e' (.run hp' hr' hd')
      exact ⟨entries'', e', hd'', hend⟩

/-! ## One operation -/

/-- Does `e` look to the part as `d` does, with nothing else on it? -/
structure Mirrors (part : Part) (d e : Dashboard) : Prop where
  agree : Agree part d e
  now : e.now = d.now
  sound : d.timeline.Sound
  sound' : e.timeline.Sound
  alone : Alone part e

theorem mirrors_new (part : Part) (config : Config) :
    Mirrors part (new config) (new config) :=
  ⟨.refl _ _, rfl, Timeline.sound_start, Timeline.sound_start, alone_new part config⟩

theorem Mirrors.push (h : Mirrors part d e) {due : Duration} (hdue : d.now ≤ due)
    (ht : part.owns task = true ∨ ∃ key labels values, task = .redraw key labels values) :
    Mirrors part (d.push due task) (e.push due task) where
  agree := h.agree.push h.sound h.sound' due task
  now := h.now
  sound := h.sound.push hdue
  sound' := h.sound'.push (Nat.le_trans (Nat.le_of_eq (congrArg _ h.now)) hdue)
  alone := h.alone.push due ht

theorem Mirrors.after (h : Mirrors part d e) {delay : Duration}
    (ht : part.owns task = true ∨ ∃ key labels values, task = .redraw key labels values)
    (hd : (d.after delay task).result = .ok d') :
    ∃ e', (e.after delay task).result = .ok e' ∧ Mirrors part d' e' := by
  obtain ⟨due, hdue, rfl⟩ := result_after_eq_ok.1 hd
  have hdue' := hdue
  rw [← h.now] at hdue'
  exact ⟨_, result_after_eq_ok.2 ⟨due, hdue', rfl⟩, h.push (Duration.le_of_add? hdue) ht⟩

theorem Mirrors.draw (h : Mirrors (.chart key) d e) {k : String}
    (hd : (d.draw labels values k).result = .ok (outcome, d')) :
    ∃ outcome' e', (e.draw labels values k).result = .ok (outcome', e') ∧
      (k = key → outcome' = outcome) ∧ Mirrors (.chart key) d' e' := by
  have hdraws := draws_of_draw hd
  have hs := hdraws.grows.sound h.sound
  by_cases hk : k = key
  · subst hk
    obtain ⟨e', he, hagree⟩ := h.agree.draw h.sound h.sound' h.now hd
    have hdraws' := draws_of_draw he
    refine ⟨outcome, e', he, fun _ => rfl, hagree, ?_, hs, hdraws'.grows.sound h.sound',
      h.alone.draws hdraws'⟩
    rw [hdraws'.now, hdraws.now, h.now]
  · have hne : Part.chart key ≠ .chart k := fun heq => hk (Part.chart.inj heq).symm
    obtain ⟨reason, hc⟩ : ∃ reason, e.checkDraw labels values k = .error reason :=
      checkDraw_of_unmounted (h.alone.unmounted k hne)
    refine ⟨.error reason, e, result_draw_of_error hc, fun heq => absurd heq hk,
      (hdraws.agree hne).symm.trans h.agree, ?_, hs, h.sound', h.alone⟩
    rw [hdraws.now, h.now]

theorem Mirrors.drawAll {draws : List (String × List Float)} {report : BatchReport}
    (h : Mirrors (.chart key) d e) (hd : (d.drawAll labels draws).result = .ok (report, d')) :
    ∃ report' e', (e.drawAll labels draws).result = .ok (report', e') ∧
      report'.about (.chart key) = report.about (.chart key) ∧ Mirrors (.chart key) d' e' := by
  induction draws generalizing d e report with
  | nil =>
    cases hd
    exact ⟨_, e, rfl, rfl, h⟩
  | cons x draws ih =>
    obtain ⟨⟨outcome, d₁⟩, hdraw, hrest⟩ := Work.result_bind_eq_ok.1 hd
    obtain ⟨⟨others, _⟩, hothers, he⟩ := Work.result_bind_eq_ok.1 hrest
    cases he
    obtain ⟨outcome', e₁, hdraw', hsame, h₁⟩ := h.draw hdraw
    obtain ⟨others', e', hothers', habout, h'⟩ := ih h₁ hothers
    refine ⟨others'.cons x.1 outcome', e', Work.result_bind_eq_ok.2
      ⟨_, hdraw', Work.result_bind_eq_ok.2 ⟨_, hothers', rfl⟩⟩, ?_, h'⟩
    rw [BatchReport.about_cons, BatchReport.about_cons, habout]
    by_cases hk : Part.chart key = .chart x.1
    · rw [if_pos hk, if_pos hk, hsame (Part.chart.inj hk).symm]
    · rw [if_neg hk, if_neg hk]

theorem Mirrors.withLoader (h : Mirrors .loader d e) (state : LoaderState) :
    Mirrors .loader (d.withLoader state) (e.withLoader state) where
  agree := h.agree.withLoader state
  now := by rw [now_withLoader, now_withLoader, h.now]
  sound := h.sound
  sound' := h.sound'
  alone := h.alone.withLoader state

theorem Mirrors.loaderFinishSuccess (h : Mirrors .loader d e)
    (hd : d.loaderFinishSuccess.result = .ok d') :
    ∃ e', e.loaderFinishSuccess.result = .ok e' ∧ Mirrors .loader d' e' := by
  obtain ⟨due, hdue, rfl⟩ := result_loaderFinishSuccess.1 hd
  have hloader := (PartState.loader.inj (h.agree.withLoader .success).state).1
  have hle : (d.withLoader .success).now ≤ due := by
    rw [now_withLoader]
    exact Duration.le_of_add? hdue
  rw [← h.now, ← h.agree.config] at hdue
  refine ⟨_, result_loaderFinishSuccess.2 ⟨due, hdue, rfl⟩, ?_⟩
  rw [hloader]
  exact (h.withLoader .success).push hle (.inl rfl)

theorem Mirrors.startLoadingBar (h : Mirrors .bars d e) {session : Nat}
    (hd : d.startLoadingBar.result = .ok (session, d')) :
    ∃ e', e.startLoadingBar.result = .ok (session, e') ∧ Mirrors .bars d' e' := by
  obtain ⟨d₁, hafter, he⟩ := Work.result_bind_eq_ok.1 hd
  cases he
  obtain ⟨hsessions, hstarted⟩ := PartState.bars.inj h.agree.state
  have hbars : Mirrors .bars
      { d with started := d.started + 1, sessions := d.sessions.insert d.started .started }
      { e with started := d.started + 1, sessions := d.sessions.insert d.started .started } :=
    ⟨h.agree.withBars _ _, h.now, h.sound, h.sound', h.alone.unmounted, h.alone.tasks⟩
  obtain ⟨e', hafter', h'⟩ := hbars.after (.inl rfl) hafter
  rw [← h.agree.config] at hafter'
  refine ⟨e', Work.result_bind_eq_ok.2 ⟨e', ?_, ?_⟩, h'⟩
  · rw [hsessions, hstarted]
    exact hafter'
  · rw [hstarted]
    rfl

theorem sound_of_advance {dt : Duration} (hs : d.timeline.Sound)
    (ha : (d.advance dt).result = .ok (entries, d')) : d'.timeline.Sound := by
  have hop : (d.perform (.advance dt)).result = .ok (.ran entries, d') :=
    Work.result_bind_eq_ok.2 ⟨_, ha, rfl⟩
  exact (run_of_perform hop).keeps_sound hs

theorem Mirrors.advance (h : Mirrors part d e) {dt : Duration}
    (hd : (d.advance dt).result = .ok (entries, d')) :
    ∃ entries' e', (e.advance dt).result = .ok (entries', e') ∧ Mirrors part d' e' := by
  obtain ⟨limit, d₁, hlimit, hdrains, rfl⟩ := result_advance_eq_ok.1 hd
  obtain ⟨entries', e₁, hdrains', hagree, halone⟩ :=
    hdrains.mirrored h.sound h.agree h.sound' h.alone
  have hlimit' := hlimit
  rw [← h.now] at hlimit'
  have hd' := result_advance_eq_ok.2 ⟨limit, e₁, hlimit', hdrains', rfl⟩
  refine ⟨entries', e₁.waited limit, hd', ?_, ?_, sound_of_advance h.sound hd,
    sound_of_advance h.sound' hd', halone.unmounted, halone.tasks⟩
  · exact ((agree_waited part d₁ limit).symm.trans hagree).trans (agree_waited part e₁ limit)
  · rw [now_waited (hdrains.now_le (Duration.le_of_add? hlimit)),
      now_waited (hdrains'.now_le (Duration.le_of_add? hlimit'))]

theorem Mirrors.perform_other {op : Operation} {answer : Answer} (h : Mirrors part d e)
    (hop : (d.perform op).result = .ok (answer, d')) (hc : op.concerns part = false) :
    Mirrors part d' e := by
  obtain ⟨hagree, hnow⟩ := agree_of_perform hop hc
  exact ⟨hagree.symm.trans h.agree, h.now.trans hnow.symm,
    (run_of_perform hop).keeps_sound h.sound, h.sound', h.alone⟩

theorem Mirrors.perform {op : Operation} {answer : Answer} (h : Mirrors part d e)
    (hop : (d.perform op).result = .ok (answer, d')) (hc : op.concerns part = true)
    (hi : op ≠ .runUntilIdle) :
    ∃ answer' e', (e.perform op).result = .ok (answer', e') ∧
      answer'.about part = answer.about part ∧ Mirrors part d' e' := by
  cases op with
  | mount key target =>
    obtain rfl : part = .chart key := of_decide_eq_true hc
    cases hop
    have hchart := (PartState.chart.inj h.agree.state).1
    refine ⟨_, _, rfl, ?_, h.agree.charts ?_, h.now, h.sound, h.sound', h.alone.insert _⟩
    · show Answer.target _ = .target _
      exact congrArg _ hchart
    · rw [Table.get?_insert, if_pos rfl, Table.get?_insert, if_pos rfl]
  | unmount key =>
    obtain rfl : part = .chart key := of_decide_eq_true hc
    cases hop
    have hchart := (PartState.chart.inj h.agree.state).1
    refine ⟨_, _, rfl, ?_, h.agree.charts ?_, h.now, h.sound, h.sound', h.alone.erase key⟩
    · show Answer.target _ = .target _
      exact congrArg _ hchart
    · rw [Table.get?_erase, if_pos rfl, Table.get?_erase, if_pos rfl]
  | draw labels values key =>
    obtain rfl : part = .chart key := of_decide_eq_true hc
    obtain ⟨⟨outcome, _⟩, hdraw, he⟩ := Work.result_bind_eq_ok.1 hop
    cases he
    obtain ⟨outcome', e', hdraw', hsame, h'⟩ := h.draw hdraw
    refine ⟨_, e', Work.result_bind_eq_ok.2 ⟨_, hdraw', rfl⟩, ?_, h'⟩
    rw [hsame rfl]
  | initCharts data =>
    have hmem : part ∈ [Part.chart employeeKey, .chart sshKey, .chart signsKey] :=
      of_decide_eq_true hc
    obtain ⟨key, rfl⟩ : ∃ key, part = .chart key := by
      simp only [List.mem_cons, List.not_mem_nil, or_false] at hmem
      rcases hmem with rfl | rfl | rfl <;> exact ⟨_, rfl⟩
    obtain ⟨⟨report, _⟩, hinit, he⟩ := Work.result_bind_eq_ok.1 hop
    cases he
    obtain ⟨d₁, hdraws, hafter⟩ := parts_of_initCharts hinit
    obtain ⟨report', e₁, hdraws', habout, h₁⟩ := h.drawAll hdraws
    obtain ⟨e', hafter', h'⟩ := h₁.after (.inr ⟨_, _, _, rfl⟩) hafter
    rw [← h₁.agree.config] at hafter'
    exact ⟨.batch report', e', Work.result_bind_eq_ok.2
      ⟨_, result_initCharts hdraws' hafter', rfl⟩, congrArg Answer.batch habout, h'⟩
  | loaderStart | loaderHide =>
    obtain rfl : part = .loader := of_decide_eq_true hc
    cases hop
    exact ⟨_, _, rfl, rfl, h.withLoader _⟩
  | loaderStep =>
    obtain rfl : part = .loader := of_decide_eq_true hc
    cases hop
    have hloader := (PartState.loader.inj h.agree.state).1
    have hmoved : Mirrors .loader (d.withLoader d.loader.state.next)
        (e.withLoader e.loader.state.next) := by
      rw [hloader]
      exact h.withLoader _
    exact ⟨_, _, rfl, rfl, hmoved⟩
  | loaderFinishSuccess =>
    obtain rfl : part = .loader := of_decide_eq_true hc
    obtain ⟨_, hfinish, he⟩ := Work.result_bind_eq_ok.1 hop
    cases he
    obtain ⟨e', hfinish', h'⟩ := h.loaderFinishSuccess hfinish
    exact ⟨_, e', Work.result_bind_eq_ok.2 ⟨_, hfinish', rfl⟩, rfl, h'⟩
  | startLoadingBar =>
    obtain rfl : part = .bars := of_decide_eq_true hc
    obtain ⟨⟨session, _⟩, hstart, he⟩ := Work.result_bind_eq_ok.1 hop
    cases he
    obtain ⟨e', hstart', h'⟩ := h.startLoadingBar hstart
    exact ⟨_, e', Work.result_bind_eq_ok.2 ⟨_, hstart', rfl⟩, rfl, h'⟩
  | advance dt =>
    obtain ⟨⟨entries, _⟩, hadvance, he⟩ := Work.result_bind_eq_ok.1 hop
    cases he
    obtain ⟨entries', e', hadvance', h'⟩ := h.advance hadvance
    exact ⟨_, e', Work.result_bind_eq_ok.2 ⟨_, hadvance', rfl⟩, rfl, h'⟩
  | runUntilIdle => exact absurd rfl hi

/-! ## Every run -/

theorem sightings_cons {op : Operation} {ops : List Operation} {answer : Answer}
    (hop : (d.perform op).result = .ok (answer, d')) :
    d.sightings part (op :: ops) =
      if op.concerns part then (answer.about part, d'.sight part) :: d'.sightings part ops
      else d'.sightings part ops := by
  rw [sightings]
  simp only [hop]

theorem Mirrors.performAll {ops : List Operation} {answers : List Answer} (h : Mirrors part d e)
    (hops : (d.performAll ops).result = .ok (answers, d')) (hi : .runUntilIdle ∉ ops) :
    (∃ answers' e', (e.performAll (ops.filter (·.concerns part))).result = .ok (answers', e')) ∧
      e.sightings part (ops.filter (·.concerns part)) = d.sightings part ops := by
  induction ops generalizing d e answers with
  | nil => exact ⟨⟨[], e, rfl⟩, rfl⟩
  | cons op ops ih =>
    obtain ⟨⟨answer, d₁⟩, hop, hrest⟩ := Work.result_bind_eq_ok.1 hops
    obtain ⟨⟨others, _⟩, hothers, he⟩ := Work.result_bind_eq_ok.1 hrest
    cases he
    rw [List.mem_cons, not_or] at hi
    obtain ⟨hne, hnot⟩ := hi
    rw [sightings_cons hop]
    cases hc : op.concerns part with
    | false =>
      rw [List.filter_cons_of_neg (by rw [hc]; exact Bool.false_ne_true)]
      exact ih (h.perform_other hop hc) hothers hnot
    | true =>
      obtain ⟨answer', e₁, hop', habout, h₁⟩ := h.perform hop hc (Ne.symm hne)
      obtain ⟨⟨answers', e', hothers'⟩, hsame⟩ := ih h₁ hothers hnot
      rw [List.filter_cons_of_pos hc, sightings_cons hop', hc, if_pos rfl, if_pos rfl, hsame,
        habout, h₁.agree.sight]
      exact ⟨⟨_, e', Work.result_bind_eq_ok.2
        ⟨_, hop', Work.result_bind_eq_ok.2 ⟨_, hothers', rfl⟩⟩⟩, rfl⟩

/-- Operations that are not addressed to a part can be left out of a run: the others are carried out
all the same, and after each of them the part looks the same and is told the same. -/
theorem sightings_filter {config : Config} {ops : List Operation} {answers : List Answer}
    (h : ((new config).performAll ops).result = .ok (answers, d)) (hi : .runUntilIdle ∉ ops) :
    (∃ answers' d', ((new config).performAll (ops.filter (·.concerns part))).result =
      .ok (answers', d')) ∧
    (new config).sightings part (ops.filter (·.concerns part)) =
      (new config).sightings part ops :=
  (mirrors_new part config).performAll h hi

/-- Two charts, a batch, a bar and the loader. -/
def sharedDay : List Operation := [
  .mount sshKey .fresh,
  .mount employeeKey .fresh,
  .loaderFinishSuccess,
  .initCharts ⟨["1", "2", "3", "4"], [1.0, 2.0, 3.0, 4.0], [1.0, 1.0, 1.0, 1.0],
    [1.0, 1.0, 1.0, 1.0]⟩,
  .advance (.ofMillis 600),
  .startLoadingBar,
  .draw ["1", "2", "3", "4"] [4.0, 3.0, 2.0, 1.0] sshKey,
  .advance (.ofMillis 900),
  .unmount employeeKey,
  .advance (.ofMillis 400)]

/-- The connections look the same when only the six operations on them are carried out. -/
theorem sightings_sshChart :
    (sharedDay.filter (·.concerns (.chart sshKey))).length = 6 ∧
      (new .default).sightings (.chart sshKey) (sharedDay.filter (·.concerns (.chart sshKey))) =
        (new .default).sightings (.chart sshKey) sharedDay := by
  refine ⟨by decide, (@sightings_filter (.chart sshKey) _ .default sharedDay _ rfl ?_).2⟩
  simp [sharedDay]

end Dashboard

end Sparkboard
