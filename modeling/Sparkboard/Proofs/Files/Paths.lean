import Sparkboard.Files.Path
/-!
# Paths inside a directory

A name joined to the path of a directory is one step more: the way to it passes all steps of the
directory and goes down by the name (`route_join`).
-/

namespace Sparkboard

namespace Path

variable {directory name : String} {xs ys : List Char}

/-- Is this the name of a file: not empty, no slash, and neither of the names made of dots? -/
structure IsName (name : String) : Prop where
  ne_empty : name ≠ ""
  no_slash : '/' ∉ name.toList
  ne_dot : name ≠ "."
  ne_dots : name ≠ ".."

/-! ## Splitting at slashes -/

theorem splitChars_ne_nil (xs : List Char) : splitChars xs ≠ [] := by
  cases xs with
  | nil => simp [splitChars]
  | cons c rest =>
    unfold splitChars
    split
    · simp
    · split <;> simp

theorem splitChars_cons (c : Char) {name : List Char} {names : List (List Char)}
    (h : splitChars xs = name :: names) :
    splitChars (c :: xs) = if c = '/' then [] :: name :: names else (c :: name) :: names := by
  rw [splitChars, h]

theorem splitChars_append_slash (xs ys : List Char) :
    splitChars (xs ++ '/' :: ys) = splitChars xs ++ splitChars ys := by
  obtain ⟨last, others, hys⟩ := List.exists_cons_of_ne_nil (splitChars_ne_nil ys)
  induction xs with
  | nil =>
    rw [List.nil_append, splitChars_cons '/' hys, if_pos rfl, hys]
    rfl
  | cons c xs ih =>
    obtain ⟨name, names, hxs⟩ := List.exists_cons_of_ne_nil (splitChars_ne_nil xs)
    rw [hxs, List.cons_append] at ih
    rw [List.cons_append, splitChars_cons c ih, splitChars_cons c hxs]
    by_cases hc : c = '/' <;> simp [hc]

theorem splitChars_of_no_slash (h : '/' ∉ xs) : splitChars xs = [xs] := by
  induction xs with
  | nil => rfl
  | cons c xs ih =>
    rw [List.mem_cons, not_or] at h
    rw [splitChars_cons c (ih h.2), if_neg (Ne.symm h.1)]

/-! ## Joining -/

theorem toList_join (directory name : String) :
    (join directory name).toList =
      if directory = "" ∨ directory.toList.getLast? = some '/' then
        directory.toList ++ name.toList
      else directory.toList ++ '/' :: name.toList := by
  unfold join
  by_cases h : directory = "" ∨ directory.toList.getLast? = some '/'
  · simp [h]
  · simp [h, String.toList_append]

theorem steps_of_isName (h : IsName name) : steps name = [.down name] := by
  have hne : name.toList ≠ [] := by
    intro hnil
    exact h.ne_empty (String.toList_inj.1 hnil)
  simp [steps, splitChars_of_no_slash h.no_slash, hne, PathStep.ofName, h.ne_dot, h.ne_dots]

/-- A path inside a directory takes the steps of the directory and one down. -/
theorem steps_join (h : IsName name) :
    steps (join directory name) = steps directory ++ [.down name] := by
  have hsteps (p : List Char) : ((splitChars p).filter (· ≠ [])).map
      (fun name => PathStep.ofName (String.ofList name)) = steps (String.ofList p) := by
    simp [steps]
  rw [← steps_of_isName h]
  unfold steps
  rw [toList_join]
  split
  · next hend =>
    rcases hend with rfl | hslash
    · rfl
    · obtain ⟨front, hfront⟩ := List.getLast?_eq_some_iff.1 hslash
      rw [hfront, List.append_assoc, List.singleton_append, splitChars_append_slash,
        splitChars_append_slash]
      simp [splitChars]
  · rw [splitChars_append_slash, List.filter_append, List.map_append]

theorem start_join (h : IsName name) : start (join directory name) = start directory := by
  have hname : name.toList.head? ≠ some '/' := fun hslash =>
    h.no_slash (List.mem_of_mem_head? hslash)
  unfold start
  rw [toList_join]
  cases hd : directory.toList with
  | nil =>
    have hempty : directory = "" := String.toList_inj.1 hd
    simp [hempty, hname]
  | cons c rest =>
    split <;> simp

theorem route_join (h : IsName name) :
    route (join directory name) = ⟨start directory, steps directory, .down name, false⟩ := by
  have hlast : (join directory name).toList.getLast? ≠ some '/' := by
    have hname : name.toList.getLast? ≠ some '/' := fun hslash =>
      h.no_slash (List.mem_of_getLast? hslash)
    obtain ⟨c, hc⟩ : ∃ c, name.toList.getLast? = some c := by
      have hne : name.toList ≠ [] := fun hnil => h.ne_empty (String.toList_inj.1 hnil)
      exact ⟨_, List.getLast?_eq_some_getLast hne⟩
    rw [toList_join]
    split <;> simpa [List.getLast?_append, List.getLast?_cons, hc] using hname
  unfold route
  rw [steps_join h, start_join h]
  simp [hlast]

end Path

end Sparkboard
