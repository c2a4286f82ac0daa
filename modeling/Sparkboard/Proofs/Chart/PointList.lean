import Mathlib.Data.List.Forall2
import Sparkboard.Chart.Geometry
import Sparkboard.Proofs.Decimal.Hundredths
/-!
# Lists of points read back

The text of a list of points, split at its blanks, has one piece for each point; a piece, split at
its comma, has two plain numerals, which spell the hundredths of the point's coordinates.  No
numeral has a blank or a comma in it, so nothing else is split.  As a text is that of one numeral
only, two lists have the same text exactly if their points have the same hundredths
(`pointsAttribute_reads_back`).
-/

namespace Sparkboard

open Hundredths (Nearest)

variable {p : Point} {points : List Point} {r r' : Hundredths × Hundredths}
  {rounded : List (Hundredths × Hundredths)} {token : List Char}

def Point.IsFinite (p : Point) : Prop := p.x.isFinite = true ∧ p.y.isFinite = true

/-- Are these the hundredths of the point's coordinates? -/
def Point.RoundsTo (p : Point) (r : Hundredths × Hundredths) : Prop :=
  r.1.Nearest p.x ∧ r.2.Nearest p.y

/-- Is the piece of text split at a comma into the plain numerals of these hundredths? -/
def SpellsPoint (token : List Char) (r : Hundredths × Hundredths) : Prop :=
  ∃ x y : Numeral, token.splitOn ',' = [x.chars, y.chars] ∧
    (x.Plain ∧ r.1.SpelledBy x) ∧ y.Plain ∧ r.2.SpelledBy y

/-- A piece spells one pair of hundredths. -/
theorem SpellsPoint.unique (h : SpellsPoint token r) (h' : SpellsPoint token r') : r = r' := by
  obtain ⟨x, y, hsplit, ⟨hx, hrx⟩, hy, hry⟩ := h
  obtain ⟨x', y', hsplit', ⟨hx', hrx'⟩, hy', hry'⟩ := h'
  rw [hsplit, List.cons.injEq, List.cons.injEq] at hsplit'
  obtain rfl := hx.eq_of_chars hx' hsplit'.1
  obtain rfl := hy.eq_of_chars hy' hsplit'.2.1
  exact Prod.ext (hrx.unique hrx') (hry.unique hry')

/-- Neither separator stands in a numeral. -/
theorem not_mem_chars {n : Numeral} (h : n.Valid) : ' ' ∉ n.chars ∧ ',' ∉ n.chars := by
  refine ⟨fun hc => ?_, fun hc => ?_⟩
  · exact absurd (h.mem_chars hc) (by decide)
  · exact absurd (h.mem_chars hc) (by decide)

/-! ## One point -/

theorem text_of_roundsTo (h : p.RoundsTo r) :
    ∃ x y : Numeral, p.text.toList = x.chars ++ ',' :: y.chars ∧
      (x.Plain ∧ r.1.SpelledBy x) ∧ y.Plain ∧ r.2.SpelledBy y := by
  obtain ⟨x, hx, hplain, hspelled⟩ := h.1.exists_numeral
  obtain ⟨y, hy, hplain', hspelled'⟩ := h.2.exists_numeral
  refine ⟨x, y, ?_, ⟨hplain, hspelled⟩, hplain', hspelled'⟩
  unfold Point.text
  rw [String.toList_append, String.toList_append, hx, hy, List.append_assoc]
  rfl

/-- A point has a text without blanks that spells its hundredths. -/
theorem spellsPoint_text (h : p.RoundsTo r) :
    ' ' ∉ p.text.toList ∧ SpellsPoint p.text.toList r := by
  obtain ⟨x, y, htext, hx, hy⟩ := text_of_roundsTo h
  obtain ⟨hblank, hcomma⟩ := not_mem_chars hx.1.valid
  obtain ⟨hblank', hcomma'⟩ := not_mem_chars hy.1.valid
  rw [htext]
  refine ⟨by simp [hblank, hblank'], x, y, ?_, hx, hy⟩
  rw [List.splitOn_append_cons_self_of_not_mem hcomma, List.splitOn_eq_singleton hcomma']

/-! ## Lists -/

theorem exists_roundsTo (hfinite : ∀ p ∈ points, p.IsFinite) :
    ∃ rounded, List.Forall₂ Point.RoundsTo points rounded := by
  induction points with
  | nil => exact ⟨[], .nil⟩
  | cons p points ih =>
    obtain ⟨hp, hpoints⟩ := List.forall_mem_cons.1 hfinite
    obtain ⟨x, hx⟩ := Hundredths.exists_nearest hp.1
    obtain ⟨y, hy⟩ := Hundredths.exists_nearest hp.2
    obtain ⟨rounded, hrounded⟩ := ih hpoints
    exact ⟨(x, y) :: rounded, .cons ⟨hx, hy⟩ hrounded⟩

/-- Split at its blanks, the text of a list has a piece for each point, which spells its hundredths.
-/
theorem spells_pointsAttribute (hne : points ≠ [])
    (h : List.Forall₂ Point.RoundsTo points rounded) :
    List.Forall₂ SpellsPoint ((pointsAttribute points).toList.splitOn ' ') rounded := by
  have hpieces : List.Forall₂ (fun p r => ' ' ∉ p.text.toList ∧ SpellsPoint p.text.toList r)
      points rounded := h.imp fun _ _ => spellsPoint_text
  obtain ⟨hblank, hspells⟩ := (List.forall₂_and_left points rounded).1 hpieces
  have hsplit : (pointsAttribute points).toList.splitOn ' ' =
      points.map fun p => p.text.toList := by
    unfold pointsAttribute
    rw [String.toList_intercalate, List.map_map]
    exact List.splitOn_intercalate ' ' (List.forall_mem_map.2 hblank) (by simpa using hne)
  rw [hsplit, List.forall₂_map_left_iff]
  exact hspells

/-- The text of a list depends on its hundredths alone. -/
theorem map_text_eq {others : List Point} (h : List.Forall₂ Point.RoundsTo points rounded)
    (h' : List.Forall₂ Point.RoundsTo others rounded) :
    others.map Point.text = points.map Point.text := by
  induction h generalizing others with
  | nil =>
    cases h'
    rfl
  | cons hp _ ih =>
    cases h' with
    | cons hq hothers =>
      have htext : ∀ x y : Float, ∀ r : Hundredths, r.Nearest x → r.Nearest y →
          Decimal.coordinate x = Decimal.coordinate y := fun x y r hx hy => by
        rw [Decimal.coordinate, Decimal.coordinate, hx.fixed_eq, hy.fixed_eq]
      rw [List.map_cons, List.map_cons, ih hothers, Point.text, Point.text, htext _ _ _ hq.1 hp.1,
        htext _ _ _ hq.2 hp.2]

/-- The text of points that are numbers, split at its blanks, has one piece for each point; a piece,
split at its comma, has two plain numerals, and they spell the hundredths nearest to the
coordinates.  Two lists have the same text exactly if they have the same hundredths, with the sign
of a zero. -/
theorem pointsAttribute_reads_back (hne : points ≠ []) (hfinite : ∀ p ∈ points, p.IsFinite) :
    ∃ rounded, List.Forall₂ Point.RoundsTo points rounded ∧
      List.Forall₂ SpellsPoint ((pointsAttribute points).toList.splitOn ' ') rounded ∧
      ∀ others rounded', others ≠ [] → List.Forall₂ Point.RoundsTo others rounded' →
        (pointsAttribute others = pointsAttribute points ↔ rounded' = rounded) := by
  obtain ⟨rounded, hrounded⟩ := exists_roundsTo hfinite
  have hspells := spells_pointsAttribute hne hrounded
  refine ⟨rounded, hrounded, hspells, fun others rounded' hne' hrounded' => ⟨fun htext => ?_, ?_⟩⟩
  · have hspells' := spells_pointsAttribute hne' hrounded'
    rw [htext] at hspells'
    have hunique : Relator.RightUnique SpellsPoint := fun _ _ _ => SpellsPoint.unique
    exact List.right_unique_forall₂' hunique hspells' hspells
  · rintro rfl
    unfold pointsAttribute
    rw [map_text_eq hrounded hrounded']

/-- Half-way between two hundredths, a negative number next to zero, whole numbers with zeros at
their end. -/
theorem pointsAttribute_reads_back_zeros :
    ∃ rounded, List.Forall₂ Point.RoundsTo [⟨0.125, -0.001⟩, ⟨110.0, 1e21⟩] rounded ∧
      List.Forall₂ SpellsPoint ["0.12,-0".toList, "110,1000000000000000000000".toList] rounded := by
  have hfinite : ∀ p ∈ [(⟨0.125, -0.001⟩ : Point), ⟨110.0, 1e21⟩], p.IsFinite := by
    unfold Point.IsFinite
    decide +kernel
  have hpieces : (pointsAttribute [⟨0.125, -0.001⟩, ⟨110.0, 1e21⟩]).toList.splitOn ' ' =
      ["0.12,-0".toList, "110,1000000000000000000000".toList] := by
    decide +kernel
  obtain ⟨rounded, hrounded, hspells, -⟩ :=
    pointsAttribute_reads_back (List.cons_ne_nil _ _) hfinite
  exact ⟨rounded, hrounded, hpieces ▸ hspells⟩

end Sparkboard
