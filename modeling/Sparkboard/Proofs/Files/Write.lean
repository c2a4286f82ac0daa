import Sparkboard.Files.FileTree
import Sparkboard.Proofs.Files.Paths
/-!
# Writing files

A path leads a writer to a location (`LeadsTo`), unless something is in the way.  The file is then
at this location, and what stands anywhere else is as before.  Since no way leads through a file,
paths go on leading where they led (`LeadsTo.put`); so several files can be written one after
another, and what stands at the end of a path is what is read (`LeadsTo.read_of_at?`).
-/

namespace Sparkboard

theorem Except.bind_eq_ok {ε α β : Type} {x : Except ε α} {f : α → Except ε β} {b : β} :
    (x >>= f) = .ok b ↔ ∃ a, x = .ok a ∧ f a = .ok b := by
  cases x <;> simp [bind, Except.bind]

namespace FileTree

variable {t t' : FileTree} {path other : String} {location elsewhere here : Location}
  {bytes : List UInt8} {e : FileEntry}

/-! ## What stands where -/

/-- What is put at a location stands there, and nothing else is moved. -/
theorem at?_put (hl : location.names ≠ []) :
    (t.put location e).at? elsewhere =
      if elsewhere = location then some e else t.at? elsewhere := by
  have hlookup (es : List (Location × FileEntry)) (hne : elsewhere ≠ location) :
      (es.filter fun x => x.1 ≠ location).lookup elsewhere = es.lookup elsewhere := by
    induction es with
    | nil => rfl
    | cons x es ih =>
      obtain ⟨k, v⟩ := x
      by_cases hk : k = location
      · have hfirst : (elsewhere == k) = false := by simp [hk, hne]
        simpa [hk, List.lookup_cons, hfirst, beq_eq_false_iff_ne.2 hne] using ih
      · simp only [ne_eq, decide_not] at ih
        simp [hk, List.lookup_cons, ih]
  unfold at? put
  by_cases heq : elsewhere = location
  · simp [heq, hl]
  · have hrest := hlookup t.entries heq
    simp only [ne_eq, decide_not] at hrest
    simp [heq, List.lookup_cons, beq_eq_false_iff_ne.2 heq, hrest]

/-- A file can stand wherever there is no directory. -/
theorem names_ne_nil (h : t.at? location ≠ some .directory) : location.names ≠ [] := by
  intro hnil
  exact h (by simp [at?, hnil])

/-- No way leads through the place of a file. -/
theorem walk_put {steps : List PathStep} (hl : t.at? location ≠ some .directory)
    (h : t.walk here steps = .ok elsewhere) :
    (t.put location (.file bytes)).walk here steps = .ok elsewhere := by
  induction steps generalizing here with
  | nil =>
    unfold walk at h ⊢
    have hdir : t.at? here = some .directory := by
      split at h <;> simp_all
    have hne : here ≠ location := fun heq => hl (heq ▸ hdir)
    simpa [at?_put (names_ne_nil hl), hne, hdir] using h
  | cons step rest ih =>
    unfold walk at h ⊢
    have hdir : t.at? here = some .directory := by
      split at h <;> simp_all
    have hne : here ≠ location := fun heq => hl (heq ▸ hdir)
    simp only [hdir, at?_put (names_ne_nil hl), hne, if_false] at h ⊢
    obtain ⟨next, hnext, h⟩ := Except.bind_eq_ok.1 h
    exact Except.bind_eq_ok.2 ⟨next, hnext, ih h⟩

/-! ## Writers -/

/-- Does the path lead a writer to this location? -/
structure LeadsTo (t : FileTree) (path : String) (location : Location) : Prop where
  way : ∃ r here name, route path = .ok r ∧ t.parent r = .ok here ∧ r.last = .down name ∧
    r.slashed = false ∧ enter here r.last = .ok location
  free : t.at? location ≠ some .directory

theorem write_eq_ok_iff :
    t.write path bytes = .ok t' ↔
      ∃ location, t.LeadsTo path location ∧ t' = t.put location (.file bytes) := by
  unfold write
  simp only [Except.bind_eq_ok]
  constructor
  · intro hex
    obtain ⟨r, hr, here, hhere, h⟩ := hex
    split at h
    · next name hlast hslashed =>
      obtain ⟨location, hlocation, h⟩ := Except.bind_eq_ok.1 h
      split at h
      · cases h
      · next hfree =>
        cases h
        exact ⟨location, ⟨⟨r, here, name, hr, hhere, hlast, hslashed, hlocation⟩, hfree⟩, rfl⟩
    · cases h
  · intro hex
    obtain ⟨location, ⟨⟨r, here, name, hr, hhere, hlast, hslashed, hlocation⟩, hfree⟩, rfl⟩ := hex
    refine ⟨r, hr, here, hhere, ?_⟩
    rw [hlast] at hlocation
    simp only [hlast, hslashed]
    refine Except.bind_eq_ok.2 ⟨location, hlocation, ?_⟩
    rw [if_neg hfree]
    rfl

theorem LeadsTo.unique (h : t.LeadsTo path location) (h' : t.LeadsTo path elsewhere) :
    location = elsewhere := by
  obtain ⟨r, here, _, hr, hhere, _, _, hlocation⟩ := h.way
  obtain ⟨r', here', _, hr', hhere', _, _, helsewhere⟩ := h'.way
  cases hr.symm.trans hr'
  cases hhere.symm.trans hhere'
  cases hlocation.symm.trans helsewhere
  rfl

/-- Paths lead where they led when a file is written. -/
theorem LeadsTo.put (h : t.LeadsTo path location) (hfree : t.at? elsewhere ≠ some .directory)
    (bytes : List UInt8) : (t.put elsewhere (.file bytes)).LeadsTo path location where
  way := by
    obtain ⟨r, here, name, hr, hhere, hlast, hslashed, hlocation⟩ := h.way
    exact ⟨r, here, name, hr, walk_put hfree hhere, hlast, hslashed, hlocation⟩
  free := by
    rw [at?_put (names_ne_nil hfree)]
    split
    · simp
    · exact h.free

/-! ## Readers -/

/-- Reading and writing go the same way. -/
theorem LeadsTo.open? (h : t.LeadsTo path location) :
    t.open? path = match t.at? location with
      | some e => .ok e
      | none => .error .notFound := by
  obtain ⟨r, here, name, hr, hhere, hlast, hslashed, hlocation⟩ := h.way
  have hfree := h.free
  unfold FileTree.open?
  simp only [hr, hhere, hlocation, hslashed, bind, Except.bind, pure, Except.pure]
  cases hat : t.at? location with
  | none => rfl
  | some e =>
    cases e with
    | file bytes => rfl
    | directory => exact absurd hat hfree

/-- A file that stands where the path leads is what is read. -/
theorem LeadsTo.read_of_at? (h : t.LeadsTo path location)
    (hat : t.at? location = some (.file bytes)) : t.read path = .ok bytes := by
  unfold read
  rw [h.open?, hat]
  rfl

/-- A path is read as before if a file is written elsewhere. -/
theorem LeadsTo.read_put (h : t.LeadsTo path location) (hfree : t.at? elsewhere ≠ some .directory)
    (hne : location ≠ elsewhere) (bytes : List UInt8) :
    (t.put elsewhere (.file bytes)).read path = t.read path := by
  have hat : (t.put elsewhere (.file bytes)).at? location = t.at? location := by
    rw [at?_put (names_ne_nil hfree), if_neg hne]
  unfold read
  rw [(h.put hfree bytes).open?, h.open?, hat]

/-! ## Files of one directory -/

/-- Different names in a directory lead to different locations. -/
theorem LeadsTo.ne_of_join {directory name name' : String} (hn : Path.IsName name)
    (hn' : Path.IsName name') (hne : name ≠ name')
    (h : t.LeadsTo (Path.join directory name) location)
    (h' : t.LeadsTo (Path.join directory name') elsewhere) : location ≠ elsewhere := by
  have hroute {p : String} {r : Route} (hr : route p = .ok r) : r = Path.route p := by
    unfold route at hr
    split at hr
    · cases hr
    · split at hr
      · cases hr
      · split at hr
        · cases hr
        · exact (Except.ok.inj hr).symm
  have henter {here l : Location} {n : String} (he : enter here (.down n) = .ok l) :
      l.names = here.names ++ [n] := by
    unfold enter at he
    dsimp only at he
    split at he
    · cases he
    · cases he
      rfl
  obtain ⟨r, here, _, hr, hhere, -, -, hlocation⟩ := h.way
  obtain ⟨r', here', _, hr', hhere', -, -, helsewhere⟩ := h'.way
  rw [hroute hr, Path.route_join hn] at hlocation hhere
  rw [hroute hr', Path.route_join hn'] at helsewhere hhere'
  cases hhere.symm.trans hhere'
  rintro rfl
  have hnames := (henter hlocation).symm.trans (henter helsewhere)
  exact hne (List.singleton_inj.1 (List.append_cancel_left hnames))

end FileTree

end Sparkboard
