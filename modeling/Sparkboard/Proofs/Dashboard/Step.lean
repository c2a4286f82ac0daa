import Sparkboard.Proofs.Dashboard.Deed
import Sparkboard.Proofs.Dashboard.Running
/-!
# Steps

`Step d deed d'` lists all that a deed can do to a dashboard, and `step_of_act` says that a deed
does nothing else.
-/

namespace Sparkboard

namespace Dashboard

/-- In the state `d` the dashboard does `deed`, and its state is `d'` afterwards. -/
inductive Step (d : Dashboard) : Deed → Dashboard → Prop where
  | mount (key : String) (target : ChartTarget) :
    Step d (.mount key target) (d.mount key target).2
  | unmount (key : String) : Step d (.unmount key) (d.unmount key).2
  | draw {labels values key outcome d'} (h : d.Draws labels values key outcome d') :
    Step d (.draw labels values key) d'
  | planRedraw {labels due} (hd : d.now.add? d.config.refreshDelay = some due) :
    Step d (.planRedraw labels) (d.push due (.redraw employeeKey labels refreshSample))
  | moveLoader (state : LoaderState) : Step d (.moveLoader state) (d.withLoader state)
  | finishLoader {due} (hd : d.now.add? d.config.loaderAutoIdle = some due) :
    Step d .finishLoader
      ((d.withLoader .success).push due (.autoIdle (d.withLoader .success).loader.generation))
  | startBar {due} (hd : d.now.add? d.config.barTiming.fadeIn = some due) :
    Step d .startBar
      ({ d with
        started := d.started + 1
        sessions := d.sessions.insert d.started .started }.push due (.loadingTick d.started))
  | fire {entry timeline d'} (hp : d.timeline.pop? = some (entry, timeline))
    (hr : ∀ key labels values, entry.task ≠ .redraw key labels values)
    (h : Ran { d with timeline } entry.task d') : Step d (.fire entry) d'
  | takeRedraw {entry timeline key labels values}
    (hp : d.timeline.pop? = some (entry, timeline))
    (ht : entry.task = .redraw key labels values) : Step d (.fire entry) { d with timeline }
  | wait {moment} (hn : d.now ≤ moment)
    (hm : ∀ e, d.timeline.pending.head? = some e → moment < e.due) :
    Step d (.wait moment) (d.waited moment)

/-- Is it time for the deed?  Only the task that stands first comes due, and the clock does not move
past a task that waits. -/
def Timely (d : Dashboard) : Deed → Prop
  | .fire entry => d.timeline.pending.head? = some entry
  | .wait moment => d.now ≤ moment ∧ ∀ e, d.timeline.pending.head? = some e → moment < e.due
  | _ => True

variable {d d' : Dashboard}

theorem popped_eq {entry : Entry Task} {timeline : Timeline Task}
    (hp : d.timeline.pop? = some (entry, timeline)) : d.popped = { d with timeline } := by
  unfold popped
  rw [hp]

theorem Step.timely {deed : Deed} (hs : Step d deed d') : d.Timely deed := by
  cases hs with
  | fire hp | takeRedraw hp =>
    show d.timeline.pending.head? = some _
    rw [(Timeline.pop?_eq_some_iff.1 hp).1]
    rfl
  | wait hn hm => exact ⟨hn, hm⟩
  | mount | unmount | draw | planRedraw | moveLoader | finishLoader | startBar => trivial

theorem step_of_act {deed : Deed} (hm : d.Timely deed) (h : (d.act deed).result = .ok d') :
    Step d deed d' := by
  cases deed with
  | mount key target => cases h; exact .mount key target
  | unmount key => cases h; exact .unmount key
  | draw labels values key =>
    obtain ⟨⟨outcome, d₁⟩, hr, h⟩ := Work.result_bind_eq_ok.1 h
    cases h
    exact .draw (draws_of_draw hr)
  | planRedraw labels =>
    obtain ⟨due, hd, rfl⟩ := result_after_eq_ok.1 h
    exact .planRedraw hd
  | moveLoader state => cases h; exact .moveLoader state
  | finishLoader =>
    obtain ⟨due, hd, rfl⟩ := result_loaderFinishSuccess.1 h
    exact .finishLoader hd
  | startBar =>
    obtain ⟨⟨session, d₁⟩, h₁, h⟩ := Work.result_bind_eq_ok.1 h
    cases h
    obtain ⟨d₂, h₂, h⟩ := Work.result_bind_eq_ok.1 h₁
    cases h
    obtain ⟨due, hd, rfl⟩ := result_after_eq_ok.1 h₂
    exact .startBar hd
  | fire entry =>
    obtain ⟨timeline, hp⟩ : ∃ timeline, d.timeline.pop? = some (entry, timeline) :=
      ⟨_, congrArg (Option.map _) hm⟩
    cases ht : entry.task with
    | redraw key labels values =>
      simp only [act, ht] at h
      cases h
      rw [popped_eq hp]
      exact .takeRedraw hp ht
    | clearAnimation | autoIdle | loadingTick =>
      simp only [act, ht, popped_eq hp] at h
      refine .fire hp (by rw [ht]; intros; exact nofun) ?_
      rw [ht]
      exact ran_of_run h
  | wait moment =>
    cases h
    exact .wait hm.1 hm.2

end Dashboard

end Sparkboard
