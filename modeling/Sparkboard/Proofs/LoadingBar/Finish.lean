import Sparkboard.LoadingBar
/-!
# Every bar comes to rest

A bar that was read from a text may be in any state, with any progress.  `Goes` lists what a step
can do to it.  A step after which the bar goes on takes one off the steps that it still needs
(`Goes.ticksLeft`), so a bar that is not hidden comes to rest after just as many as `ticksLeft`
says, and stays so (`comes_to_rest`).  The widths that it shows while it fills go up from its
progress to a hundred percent at most.
-/

namespace Sparkboard

namespace LoadingBar

variable {timing : BarTiming} {bar next : LoadingBar} {delay : Duration} {answer : Option Duration}

/-- Does the next step of the bar fill a part of it? -/
def Fills (bar : LoadingBar) : Prop :=
  (bar.phase = .fadingIn ∨ bar.phase = .filling) ∧ bar.progress ≤ fullPercent

instance (bar : LoadingBar) : Decidable bar.Fills :=
  inferInstanceAs (Decidable (_ ∧ _))

def filled (bar : LoadingBar) : LoadingBar :=
  { bar with phase := .filling, width := bar.progress, progress := bar.progress + stepPercent }

def ticked (timing : BarTiming) : Nat → LoadingBar → LoadingBar
  | 0, bar => bar
  | n + 1, bar => ticked timing n (bar.tick timing).2

/-- The widths that so many steps give to a bar that fills, in order. -/
def widths (timing : BarTiming) : Nat → LoadingBar → List Nat
  | 0, _ => []
  | n + 1, bar =>
    let next := (bar.tick timing).2
    if next.phase = .filling then next.width :: widths timing n next else widths timing n next

/-! ## One step -/

/-- All that a step can do: the wait for the next one, and the bar afterwards. -/
inductive Goes (timing : BarTiming) (bar : LoadingBar) : Option Duration → LoadingBar → Prop where
  | hidden (hp : bar.phase = .hidden) : Goes timing bar none bar
  | fill (hf : bar.Fills) : Goes timing bar (some timing.tick) bar.filled
  | settle (hp : bar.phase = .fadingIn ∨ bar.phase = .filling)
    (hfull : ¬bar.progress ≤ fullPercent) :
    Goes timing bar (some timing.settle) { bar with phase := .settling }
  | fadeOut (hp : bar.phase = .settling) :
    Goes timing bar (some timing.fadeOut)
      { bar with phase := .fadingOut, animation := some fadeOutName }
  | rest (hp : bar.phase = .fadingOut) : Goes timing bar none .rest

theorem tick_filling (timing : BarTiming) (hp : bar.phase = .fadingIn ∨ bar.phase = .filling) :
    bar.tick timing =
      if bar.progress ≤ fullPercent then (some timing.tick, bar.filled)
      else (some timing.settle, { bar with phase := .settling }) := by
  unfold tick
  rcases hp with hp | hp <;> rw [hp] <;> rfl

theorem goes_tick (timing : BarTiming) (bar : LoadingBar) :
    Goes timing bar (bar.tick timing).1 (bar.tick timing).2 := by
  have hfilling (hp : bar.phase = .fadingIn ∨ bar.phase = .filling) :
      Goes timing bar (bar.tick timing).1 (bar.tick timing).2 := by
    rw [tick_filling timing hp]
    split
    · next hle => exact .fill ⟨hp, hle⟩
    · next hfull => exact .settle hp hfull
  cases hp : bar.phase with
  | fadingIn => exact hfilling (.inl hp)
  | filling => exact hfilling (.inr hp)
  | hidden =>
    simp only [tick, hp]
    exact .hidden hp
  | settling =>
    simp only [tick, hp]
    exact .fadeOut hp
  | fadingOut =>
    simp only [tick, hp]
    exact .rest hp

/-! ## The steps that are left -/

theorem ticksLeft_pos (bar : LoadingBar) : 0 < bar.ticksLeft := by
  unfold ticksLeft
  split <;> omega

theorem ticksLeft_filling (hp : bar.phase = .fadingIn ∨ bar.phase = .filling) :
    bar.ticksLeft =
      (if bar.progress ≤ fullPercent then (fullPercent - bar.progress) / stepPercent + 1 else 0) +
        3 := by
  unfold ticksLeft
  rcases hp with hp | hp <;> rw [hp]

/-- A step after which the bar goes on takes one off the steps that are left. -/
theorem Goes.ticksLeft (h : Goes timing bar (some delay) next) :
    next.phase ≠ .hidden ∧ bar.ticksLeft = next.ticksLeft + 1 := by
  cases h with
  | fill hf =>
    have hnext : bar.filled.progress = bar.progress + stepPercent := rfl
    refine ⟨nofun, ?_⟩
    rw [ticksLeft_filling hf.1, ticksLeft_filling (.inr rfl), if_pos hf.2, hnext]
    have hle := hf.2
    unfold fullPercent stepPercent at *
    split <;> omega
  | settle hp hfull =>
    refine ⟨nofun, ?_⟩
    rw [ticksLeft_filling hp, if_neg hfull]
    rfl
  | fadeOut hp =>
    refine ⟨nofun, ?_⟩
    simp only [LoadingBar.ticksLeft, hp]

theorem ticksLeft_tick (h : bar.tick timing = (some delay, next)) :
    next.ticksLeft + 1 = bar.ticksLeft := by
  have hgoes := goes_tick timing bar
  rw [h] at hgoes
  exact hgoes.ticksLeft.2.symm

/-- A step after which the bar does not go on was its last. -/
theorem Goes.at_rest (h : Goes timing bar none next) (hp : bar.phase ≠ .hidden) :
    next = .rest ∧ bar.ticksLeft = 1 := by
  cases h with
  | hidden hhidden => exact absurd hhidden hp
  | rest hout => exact ⟨rfl, by simp only [LoadingBar.ticksLeft, hout]⟩

/-- A step of a bar that is not hidden is its last, or it takes one off the steps that are left. -/
theorem tick_cases (timing : BarTiming) (hp : bar.phase ≠ .hidden) :
    (bar.tick timing = (none, rest) ∧ bar.ticksLeft = 1) ∨
      ∃ delay next, bar.tick timing = (some delay, next) ∧ next.phase ≠ .hidden ∧
        bar.ticksLeft = next.ticksLeft + 1 := by
  have hgoes := goes_tick timing bar
  cases htick : bar.tick timing with
  | mk answer next =>
    rw [htick] at hgoes
    cases answer with
    | none =>
      obtain ⟨rfl, hlast⟩ := hgoes.at_rest hp
      exact .inl ⟨rfl, hlast⟩
    | some delay =>
      obtain ⟨hnext, hleft⟩ := hgoes.ticksLeft
      exact .inr ⟨delay, next, rfl, hnext, hleft⟩

theorem ticked_rest (timing : BarTiming) (n : Nat) : rest.ticked timing n = rest := by
  induction n with
  | zero => rfl
  | succ n ih => exact ih

/-- The step after `n` others is the last or a later one exactly if no more than `n + 1` were
left. -/
theorem tick_ticked_eq_none_iff (timing : BarTiming) (hp : bar.phase ≠ .hidden) (n : Nat) :
    ((bar.ticked timing n).tick timing).1 = none ↔ bar.ticksLeft ≤ n + 1 := by
  induction n generalizing bar with
  | zero =>
    rcases tick_cases timing hp with ⟨htick, hlast⟩ | ⟨delay, next, htick, -, hleft⟩
    · simp [ticked, htick, hlast]
    · have hpos := ticksLeft_pos next
      simp only [ticked, htick, reduceCtorEq, false_iff]
      omega
  | succ n ih =>
    rw [ticked]
    rcases tick_cases timing hp with ⟨htick, hlast⟩ | ⟨delay, next, htick, hnext, hleft⟩
    · rw [htick, ticked_rest, hlast]
      simp [rest, tick]
    · rw [htick, ih hnext, hleft, Nat.add_le_add_iff_right]

theorem ticked_eq_rest (timing : BarTiming) (hp : bar.phase ≠ .hidden) {n : Nat}
    (hn : bar.ticksLeft ≤ n) : bar.ticked timing n = rest := by
  induction n generalizing bar with
  | zero =>
    have hpos := ticksLeft_pos bar
    omega
  | succ n ih =>
    rw [ticked]
    rcases tick_cases timing hp with ⟨htick, -⟩ | ⟨delay, next, htick, hnext, hleft⟩
    · rw [htick, ticked_rest]
    · have hnext' : next.ticksLeft ≤ n := by omega
      rw [htick]
      exact ih hnext hnext'

/-! ## What a bar holds -/

/-- A step counts the progress up only below a hundred percent, and shows no width but the
progress. -/
theorem Goes.lt {bound : Nat} (h : Goes timing bar answer next)
    (hbound : fullPercent + stepPercent < bound) (hprogress : bar.progress < bound)
    (hwidth : bar.width < bound) :
    next.progress < bound ∧ next.width < bound := by
  cases h with
  | hidden | settle | fadeOut => exact ⟨hprogress, hwidth⟩
  | fill hf =>
    have hsum : bar.progress + stepPercent ≤ fullPercent + stepPercent :=
      Nat.add_le_add_right hf.2 _
    exact ⟨Nat.lt_of_le_of_lt hsum hbound, hprogress⟩
  | rest =>
    have hzero : 0 < bound := Nat.zero_lt_of_lt hbound
    exact ⟨hzero, hzero⟩

/-- What fits so many bits goes on to fit them. -/
theorem ticked_lt {bound : Nat} (timing : BarTiming) (hbound : fullPercent + stepPercent < bound)
    (hprogress : bar.progress < bound) (hwidth : bar.width < bound) (n : Nat) :
    (bar.ticked timing n).progress < bound ∧ (bar.ticked timing n).width < bound := by
  induction n generalizing bar with
  | zero => exact ⟨hprogress, hwidth⟩
  | succ n ih =>
    obtain ⟨hprogress, hwidth⟩ := (goes_tick timing bar).lt hbound hprogress hwidth
    exact ih hprogress hwidth

theorem Goes.not_fills (h : Goes timing bar answer next) (hf : ¬bar.Fills) :
    ¬next.Fills ∧ next.phase ≠ .filling := by
  have hnot {b : LoadingBar} (hin : b.phase ≠ .fadingIn) (hfill : b.phase ≠ .filling) :
      ¬b.Fills ∧ b.phase ≠ .filling := ⟨fun h => h.1.elim hin hfill, hfill⟩
  cases h with
  | fill hfills => exact absurd hfills hf
  | hidden hp => exact hnot (by rw [hp]; exact nofun) (by rw [hp]; exact nofun)
  | settle | fadeOut | rest => exact hnot nofun nofun

theorem widths_of_not_fills (timing : BarTiming) (hf : ¬bar.Fills) (n : Nat) :
    bar.widths timing n = [] := by
  induction n generalizing bar with
  | zero => rfl
  | succ n ih =>
    obtain ⟨hnext, hphase⟩ := (goes_tick timing bar).not_fills hf
    rw [widths, if_neg hphase, ih hnext]

theorem widths_of_fills (timing : BarTiming) (hf : bar.Fills) (n : Nat) :
    bar.widths timing (n + 1) = bar.progress :: bar.filled.widths timing n := by
  have htick : (bar.tick timing).2 = bar.filled := by
    rw [tick_filling timing hf.1, if_pos hf.2]
  rw [widths, htick]
  rfl

/-- The widths begin with the progress if the bar fills; there is none if it does not. -/
theorem head?_widths (timing : BarTiming) (bar : LoadingBar) (n : Nat) :
    (bar.widths timing n).head? = if 0 < n ∧ bar.Fills then some bar.progress else none := by
  by_cases hf : bar.Fills
  · cases n with
    | zero => rfl
    | succ n => simp [widths_of_fills timing hf, hf]
  · simp [widths_of_not_fills timing hf, hf]

/-- The widths go up, from the progress at least to a hundred percent at most. -/
theorem widths_ascend (timing : BarTiming) (bar : LoadingBar) (n : Nat) :
    (bar.widths timing n).Pairwise (· < ·) ∧
      ∀ w ∈ bar.widths timing n, bar.progress ≤ w ∧ w ≤ fullPercent := by
  induction n generalizing bar with
  | zero => exact ⟨.nil, nofun⟩
  | succ n ih =>
    by_cases hf : bar.Fills
    · obtain ⟨hascend, hbounds⟩ := ih bar.filled
      have hnext : bar.filled.progress = bar.progress + stepPercent := rfl
      have hstep : 0 < stepPercent := by decide
      rw [hnext] at hbounds
      rw [widths_of_fills timing hf]
      refine ⟨List.pairwise_cons.2 ⟨fun w hw => ?_, hascend⟩,
        List.forall_mem_cons.2 ⟨⟨Nat.le_refl _, hf.2⟩, fun w hw => ?_⟩⟩
      · have hw' := (hbounds w hw).1
        omega
      · obtain ⟨hlow, hhigh⟩ := hbounds w hw
        exact ⟨by omega, hhigh⟩
    · rw [widths_of_not_fills timing hf]
      exact ⟨.nil, nofun⟩

/-! ## Every bar -/

/-- Whatever a bar holds, unless it is hidden: its steps go on until just as many were made as were
left, and from then on it is at rest.  The progress is counted up within 32 bits, and the widths
that any number of steps show go up from the progress to a hundred percent at most. -/
theorem comes_to_rest (timing : BarTiming) (bar : LoadingBar) (hp : bar.phase ≠ .hidden) :
    (∀ n, ((bar.ticked timing n).tick timing).1 = none ↔ bar.ticksLeft ≤ n + 1) ∧
    (∀ n, bar.ticksLeft ≤ n → bar.ticked timing n = rest) ∧
    (∀ n, (bar.ticked timing n).Fills →
      (bar.ticked timing n).progress + stepPercent < Nat.pow 2 32) ∧
    (bar.progress < Nat.pow 2 32 → bar.width < Nat.pow 2 32 → ∀ n,
      (bar.ticked timing n).progress < Nat.pow 2 32 ∧ (bar.ticked timing n).width < Nat.pow 2 32) ∧
    ∀ n, (bar.widths timing n).Pairwise (· < ·) ∧ (∀ w ∈ bar.widths timing n, w ≤ 100) ∧
      (bar.widths timing n).head? = if 0 < n ∧ bar.Fills then some bar.progress else none := by
  refine ⟨tick_ticked_eq_none_iff timing hp, fun n hn => ticked_eq_rest timing hp hn,
    fun n hf => ?_, fun hprogress hwidth n => ticked_lt timing (by decide) hprogress hwidth n,
    fun n => ?_⟩
  · have hsum : (bar.ticked timing n).progress + stepPercent ≤ fullPercent + stepPercent :=
      Nat.add_le_add_right hf.2 _
    exact Nat.lt_of_le_of_lt hsum (by decide)
  · obtain ⟨hascend, hbounds⟩ := widths_ascend timing bar n
    exact ⟨hascend, fun w hw => (hbounds w hw).2, head?_widths timing bar n⟩

/-- A bar as no dashboard leaves it: it fills at an odd width, out of sight. -/
def oddBar : LoadingBar := ⟨.filling, false, some "spin", 37, Nat.pow 2 32 - 1⟩

def oddTiming : BarTiming := ⟨.zero, .ofMillis 85, .zero, .ofMillis 1⟩

/-- The odd bar fills from 37 to 97 percent and comes to rest with its tenth step. -/
theorem comes_to_rest_oddBar :
    oddBar.phase ≠ .hidden ∧
    (∀ n, ((oddBar.ticked oddTiming n).tick oddTiming).1 = none ↔ 10 ≤ n + 1) ∧
    oddBar.ticked oddTiming 10 = rest ∧
    (oddBar.ticked oddTiming 9).progress < Nat.pow 2 32 ∧
    oddBar.widths oddTiming 10 = [37, 47, 57, 67, 77, 87, 97] ∧
    (oddBar.widths oddTiming 10).Pairwise (· < ·) := by
  have hphase : oddBar.phase ≠ .hidden := nofun
  obtain ⟨hends, hrest, -, hword, hwidths⟩ := comes_to_rest oddTiming oddBar hphase
  exact ⟨hphase, hends, hrest 10 (by decide), (hword (by decide) (by decide) 9).1, rfl,
    (hwidths 10).1⟩

end LoadingBar

end Sparkboard
