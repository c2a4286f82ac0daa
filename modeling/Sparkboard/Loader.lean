import Sparkboard.Flags
import Sparkboard.Json.Reader
import Sparkboard.Json.Value
/-!
# The approval loader

The loader walks through four panels in a cycle, and is idle while none is shown.  Every move clears
all panels and the dimmer before it shows the panel of the new state, so at no moment are two panels
shown.
-/

namespace Sparkboard

open Json (Reader)

/-- What the loader shows. -/
inductive LoaderState where
  | idle
  | request
  | approve
  | fail
  | success
  deriving DecidableEq, Repr

namespace LoaderState

/-- The states that have a panel, in the order of the cycle. -/
def panels : List LoaderState := [request, approve, fail, success]

/-- The state one step further.  An idle loader enters the cycle at its start. -/
def next : LoaderState → LoaderState
  | idle => request
  | request => approve
  | approve => fail
  | fail => success
  | success => request

def panelId? : LoaderState → Option String
  | idle => none
  | request => some "request-loader"
  | approve => some "approve-loader"
  | fail => some "fail-loader"
  | success => some "success-loader"

def name : LoaderState → String
  | idle => "idle"
  | request => "request"
  | approve => "approve"
  | fail => "fail"
  | success => "success"

/-- All states, by their names. -/
def choices : List (String × LoaderState) :=
  (idle :: panels).map fun s => (s.name, s)

def toJson (s : LoaderState) : Json := .string s.name

def reader : Reader LoaderState := Reader.variant choices

end LoaderState

/-- The element that dims the page while a panel is shown. -/
def dimmerId : String := "loader-bg"

/-- The loader: its state, and how many moves it has made. -/
structure Loader where
  state : LoaderState
  generation : Nat
  deriving DecidableEq, Repr

namespace Loader

def fresh : Loader := ⟨.idle, 0⟩

instance : Inhabited Loader := ⟨fresh⟩

/-- Takes the flag off everything that the loader ever shows. -/
def hideAll : List FlagChange :=
  LoaderState.panels.filterMap (fun p => p.panelId?.map fun id => .clear id shownFlag) ++
    [.clear dimmerId shownFlag]

/-- Shows the panel of a state and the dimmer. -/
def reveal (s : LoaderState) : List FlagChange :=
  match s.panelId? with
  | none => []
  | some id => [.set id shownFlag, .set dimmerId shownFlag]

/-- Moves to a state; the changes to the board are given in the order in which they are made. -/
def move (l : Loader) (s : LoaderState) : List FlagChange × Loader :=
  (hideAll ++ reveal s, ⟨s, l.generation + 1⟩)

def start (l : Loader) : List FlagChange × Loader := l.move .request

def step (l : Loader) : List FlagChange × Loader := l.move l.state.next

def finishSuccess (l : Loader) : List FlagChange × Loader := l.move .success

def hide (l : Loader) : List FlagChange × Loader := l.move .idle

/-- Hides everything unless the loader has moved since `generation`. -/
def autoIdle? (l : Loader) (generation : Nat) : Option (List FlagChange × Loader) :=
  if generation = l.generation then some l.hide else none

end Loader

end Sparkboard
