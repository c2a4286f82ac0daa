import Sparkboard.Chart.Target
import Sparkboard.Time.Duration
/-!
# Entrance animations

A chart is animated when it is drawn, and the animation is taken off after a while.  The ticket for
taking it off names the draw; once a later draw has taken over the chart, it no longer counts.
-/

namespace Sparkboard

/-- The animation that draws start. -/
structure Animator where
  name : String
  duration : Duration
  /-- How long after its start the animation is taken off. -/
  clearAfter : Duration
  deriving DecidableEq, Repr

/-- The right to take off the animation of one draw. -/
structure AnimationTicket where
  generation : Nat
  clearAfter : Duration
  deriving DecidableEq, Repr

namespace Animator

/-- Starts the animation for a draw.  Its length in milliseconds is kept in 64 bits. -/
def animate (a : Animator) (root : ChartRoot) (generation : Nat) : AnimationTicket × ChartRoot :=
  (⟨generation, a.clearAfter⟩,
    { root with animation := some ⟨a.name, a.duration.millis % Nat.pow 2 64⟩ })

end Animator

/-- Takes off the animation if the root still shows the draw `generation`; tells whether it does. -/
def ChartRoot.finishAnimation (root : ChartRoot) (generation : Nat) : Bool × ChartRoot :=
  if root.generation = generation then (true, { root with animation := none }) else (false, root)

end Sparkboard
