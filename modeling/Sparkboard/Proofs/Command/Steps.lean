import Sparkboard.Command.Run
/-!
# Steps of a command

How the steps of a command end, and in which session.  A sequence ends as its last step does if all
before it come to a result (`Ends.bind`).
-/

namespace Sparkboard.Command

variable {α β : Type} {s s₁ s₂ : Session} {step : Step α} {next : α → Step β} {a : α}
  {path line : String} {t : FileTree}

/-- Does the step end like this, and leave this session? -/
def Ends (step : Step α) (s : Session) (result : Except Failure α) (s' : Session) : Prop :=
  step.run.run s = (result, s')

def Session.warned (s : Session) (ls : List String) : Session :=
  { s with err := s.err ++ ls.toArray }

def Session.changed (s : Session) (t : FileTree) (cs : List FileChange) : Session :=
  { s with files := t, changes := s.changes ++ cs.toArray }

/-! ## Sequences -/

theorem ends_pure (a : α) (s : Session) : Ends (pure a) s (.ok a) s := rfl

theorem Ends.bind {result : Except Failure β} (h : Ends step s (.ok a) s₁)
    (hn : Ends (next a) s₁ result s₂) : Ends (step >>= next) s result s₂ := by
  unfold Ends at *
  rw [ExceptT.run_bind, StateT.run_bind, h]
  exact hn

/-! ## Single steps -/

theorem ends_get (s : Session) : Ends get s (.ok s) s := rfl

theorem ends_warn (line : String) (s : Session) :
    Ends (warn line) s (.ok ()) (s.warned [line]) := by
  have happend : s.err.push line = s.err ++ [line].toArray := by simp
  unfold Session.warned
  rw [← happend]
  rfl

theorem ends_fail (message : String) (s : Session) :
    Ends (fail message : Step α) s (.error (.error message)) s := rfl

theorem ends_loaded {r : Except LoadError α} (hr : r = .ok a) (s : Session) :
    Ends (loaded r) s (.ok a) s := by
  subst hr
  rfl

theorem ends_worked {w : Work α} (hw : w.result = .ok a) (s : Session) :
    Ends (worked w) s (.ok a) s := by
  unfold worked
  rw [hw]
  rfl

theorem ends_makeDirectory (h : s.files.makeDirectories path = .ok t) :
    Ends (makeDirectory path) s (.ok ()) (s.changed t [.directory path]) := by
  have happend : s.changes.push (.directory path) =
      s.changes ++ [FileChange.directory path].toArray := by
    simp
  refine .bind (ends_get s) ?_
  rw [h]
  unfold Session.changed
  rw [← happend]
  rfl

theorem ends_save {saving : FileTree → Except SaveError FileTree} (h : saving s.files = .ok t) :
    Ends (save path saving) s (.ok ()) (s.changed t [.file path]) := by
  have happend : s.changes.push (.file path) = s.changes ++ [FileChange.file path].toArray := by
    simp
  refine .bind (ends_get s) ?_
  rw [h]
  unfold Session.changed
  rw [← happend]
  rfl

/-! ## Loops -/

theorem Ends.forIn_cons {x : α} {xs : List α} {body : α → PUnit → Step (ForInStep PUnit)}
    {result : Except Failure PUnit} (h : Ends (body x ⟨⟩) s (.ok (.yield ⟨⟩)) s₁)
    (hn : Ends (forIn xs PUnit.unit body) s₁ result s₂) :
    Ends (forIn (x :: xs) PUnit.unit body) s result s₂ := by
  rw [List.forIn_cons]
  exact h.bind hn

/-- A loop that prints a line for each item. -/
theorem ends_forIn_warn {body : α → PUnit → Step (ForInStep PUnit)} {f : α → String}
    (h : ∀ x s, Ends (body x ⟨⟩) s (.ok (.yield ⟨⟩)) (s.warned [f x])) (xs : List α)
    (s : Session) : Ends (forIn xs PUnit.unit body) s (.ok ⟨⟩) (s.warned (xs.map f)) := by
  induction xs generalizing s with
  | nil =>
    have hnone : s.warned [] = s := by simp [Session.warned]
    rw [List.map_nil, hnone]
    exact ends_pure _ s
  | cons x xs ih =>
    have hall : s.warned ((x :: xs).map f) = (s.warned [f x]).warned (xs.map f) := by
      simp [Session.warned]
    rw [hall]
    exact (h x s).forIn_cons (ih _)

end Sparkboard.Command
