import Sparkboard.Chart.Error
import Sparkboard.Loader
import Sparkboard.Timeline
/-!
# Events and work

What a dashboard does is logged as events, each worded in one place.  A piece of work carries the
events it logged and its result; if the clock overflows there is no result, and the events up to
then remain.
-/

namespace Sparkboard

/-- How urgent an event is. -/
inductive Level where
  | debug
  | info
  | error
  deriving DecidableEq, Repr

def Level.name : Level → String
  | debug => "DEBUG"
  | info => "INFO"
  | error => "ERROR"

/-- The part of a dashboard that logs an event. -/
inductive Component where
  | dashboard
  | loader
  deriving DecidableEq, Repr

def Component.name : Component → String
  | dashboard => "dashboard"
  | loader => "loader"

/-- Something worth logging. -/
inductive Event where
  /-- A chart was drawn; `max` is the largest value of its series. -/
  | drawn (key : String) (generation : Nat) (max : Float)
  /-- A chart was not drawn. -/
  | notDrawn (key : String) (reason : ChartError)
  /-- A batch of charts was drawn. -/
  | initialized (drawn failed : Nat)
  /-- An animation was to be taken off after a later draw had taken over. -/
  | staleClear (key : String) (generation : Nat)
  /-- An animation was to be taken off a chart that is no longer mounted. -/
  | clearOfUnmounted (key : String)
  /-- A loader was to be hidden that had moved on. -/
  | staleAutoIdle (generation : Nat)
  /-- A loading bar came to rest. -/
  | sessionFinished (session : Nat)
  /-- The loader moved. -/
  | loaderMoved (before after : LoaderState)
  deriving DecidableEq, Repr

namespace Event

def level : Event → Level
  | notDrawn .. => .error
  | initialized .. => .info
  | _ => .debug

def component : Event → Component
  | loaderMoved .. => .loader
  | _ => .dashboard

def message : Event → String
  | drawn key generation max =>
    s!"drew `{key}` generation {generation} max {Decimal.message max}"
  | notDrawn key reason => s!"chart `{key}` not drawn: {reason.message}"
  | initialized good bad => s!"initialized charts: {good} drawn, {bad} failed"
  | staleClear key generation =>
    s!"stale animation clear for `{key}` (generation {generation})"
  | clearOfUnmounted key => s!"animation clear for unmounted chart `{key}`"
  | staleAutoIdle generation => s!"stale loader auto-idle (generation {generation})"
  | sessionFinished session => s!"loading session {session} finished"
  | loaderMoved before after => s!"loader {before.name} -> {after.name}"

end Event

/-- A piece of work: what it logged, and what came of it. -/
structure Work (α : Type) where
  log : List Event
  result : Except ClockOverflow α

namespace Work

variable {α β : Type}

def bind (w : Work α) (f : α → Work β) : Work β :=
  match w.result with
  | .error e => ⟨w.log, .error e⟩
  | .ok a => ⟨w.log ++ (f a).log, (f a).result⟩

instance : Monad Work where
  pure a := ⟨[], .ok a⟩
  bind := bind

def note (e : Event) : Work Unit := ⟨[e], .ok ()⟩

def attempt (r : Except ClockOverflow α) : Work α := ⟨[], r⟩

@[simp]
theorem result_pure (a : α) : (pure a : Work α).result = .ok a := rfl

@[simp]
theorem result_bind (w : Work α) (f : α → Work β) :
    (w >>= f).result = w.result >>= fun a => (f a).result := by
  show (bind w f).result = _
  unfold bind
  cases w.result <;> rfl

end Work

end Sparkboard
