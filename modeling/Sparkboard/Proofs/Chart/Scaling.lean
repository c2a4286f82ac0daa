import Sparkboard.Chart.Scale
import Sparkboard.Proofs.Chart.Checks
import Sparkboard.Proofs.Decimal.Arithmetic
/-!
# Heights stay in range and in order

Placing a value takes a division, a multiplication and a subtraction, and each of them may round.
Of rounding it is only needed that it keeps the order and leaves the numbers of the arithmetic alone
(`Rounding`): then no height passes those of zero and of the maximum, zero and the maximum have
exactly these heights, and a larger value is never placed lower.  Floats round so
(`floatRounding`), so the points of every series are in range and in order
(`points_in_range_in_order`).
-/

namespace Sparkboard

namespace Scale

/-- What is needed of an arithmetic: the numbers that its elements stand for, which are not
negative, and a rounding that follows every operation, as long as the exact number is no more than
the height of a zero. -/
structure Rounding (α : Type) [ChartArithmetic α] where
  standsFor : α → ℚ → Prop
  round : ℚ → ℚ
  mono : ∀ {v w : ℚ}, 0 ≤ v → v ≤ w → round v ≤ round w
  keeps : ∀ {x v}, standsFor x v → round v = v
  nonneg : ∀ {x v}, standsFor x v → 0 ≤ v
  natural : ∀ {n : Nat}, n ≤ 105 → standsFor (ChartArithmetic.ofNat n) n
  lt_iff : ∀ {x y v w}, standsFor x v → standsFor y w → (x < y ↔ v < w)
  isZero_iff : ∀ {x v}, standsFor x v → (ChartArithmetic.isZero x = true ↔ v = 0)
  div : ∀ {x y v w}, standsFor x v → standsFor y w → 0 < w → v / w ≤ 105 →
    standsFor (x / y) (round (v / w))
  mul : ∀ {x y v w}, standsFor x v → standsFor y w → v * w ≤ 105 →
    standsFor (x * y) (round (v * w))
  sub : ∀ {x y v w}, standsFor x v → standsFor y w → w ≤ v → v ≤ 105 →
    standsFor (x - y) (round (v - w))

/-- What numbers are measured by: their maximum, or one where that is zero. -/
def measure (max : ℚ) : ℚ := if max = 0 then 1 else max

section

variable {v max : ℚ}

theorem measure_pos (h : 0 ≤ max) : 0 < measure max := by
  unfold measure
  split
  · exact one_pos
  · next hne => exact lt_of_le_of_ne h (Ne.symm hne)

theorem div_measure_le (hv : 0 ≤ v) (hle : v ≤ max) : v / measure max ≤ 1 := by
  rw [div_le_one (measure_pos (hv.trans hle))]
  unfold measure
  split
  · next hzero => linarith
  · exact hle

end

namespace Rounding

variable {α : Type} [ChartArithmetic α] (r : Rounding α) {x y top : α} {v w max : ℚ} {n : Nat}

/-! ## The height of a number -/

/-- How far a number stands above zero, rounded after every operation. -/
def rise (max v : ℚ) : ℚ := r.round (100 * r.round (v / measure max))

def level (max v : ℚ) : ℚ := r.round (105 - r.rise max v)

theorem round_natural (hn : n ≤ 105) : r.round n = n := r.keeps (r.natural hn)

/-- Rounding does not pass a whole number. -/
theorem round_le (hv : 0 ≤ v) (hle : v ≤ n) (hn : n ≤ 105) : r.round v ≤ n :=
  (r.mono hv hle).trans_eq (r.round_natural hn)

theorem le_round (hle : n ≤ v) (hn : n ≤ 105) : n ≤ r.round v :=
  (r.round_natural hn).symm.trans_le (r.mono (Nat.cast_nonneg n) hle)

theorem round_nonneg (hv : 0 ≤ v) : 0 ≤ r.round v := by
  have hzero := r.le_round (n := 0) (by exact_mod_cast hv) (by omega)
  exact_mod_cast hzero

section

variable (hv : 0 ≤ v) (hle : v ≤ max)

include hv hle

theorem quotient_mem : 0 ≤ r.round (v / measure max) ∧ r.round (v / measure max) ≤ 1 := by
  have hquotient : 0 ≤ v / measure max := div_nonneg hv (measure_pos (hv.trans hle)).le
  have hone := r.round_le (n := 1) hquotient (by exact_mod_cast div_measure_le hv hle) (by omega)
  exact ⟨r.round_nonneg hquotient, by exact_mod_cast hone⟩

theorem rise_mem : 0 ≤ r.rise max v ∧ r.rise max v ≤ 100 := by
  obtain ⟨hlow, hhigh⟩ := r.quotient_mem hv hle
  have hproduct : 0 ≤ 100 * r.round (v / measure max) := by linarith
  have hspan := r.round_le (n := 100) hproduct (by push_cast; linarith) (by omega)
  exact ⟨r.round_nonneg hproduct, by exact_mod_cast hspan⟩

/-- A height lies between those of the maximum and of zero. -/
theorem level_mem : 5 ≤ r.level max v ∧ r.level max v ≤ 105 := by
  obtain ⟨hlow, hhigh⟩ := r.rise_mem hv hle
  have htop := r.le_round (n := 5) (v := 105 - r.rise max v) (by push_cast; linarith) (by omega)
  have hbottom := r.round_le (n := 105) (v := 105 - r.rise max v) (by linarith)
    (by push_cast; linarith) (by omega)
  exact ⟨by exact_mod_cast htop, by exact_mod_cast hbottom⟩

end

/-- A larger number is not placed lower. -/
theorem level_anti (hv : 0 ≤ v) (hle : v ≤ w) (hmax : w ≤ max) : r.level max w ≤ r.level max v := by
  have hpos := measure_pos (hv.trans (hle.trans hmax))
  have hquotient : r.round (v / measure max) ≤ r.round (w / measure max) :=
    r.mono (div_nonneg hv hpos.le) (div_le_div_of_nonneg_right hle hpos.le)
  have hlow := (r.quotient_mem hv (hle.trans hmax)).1
  have hrise : r.rise max v ≤ r.rise max w := r.mono (by linarith) (by linarith)
  have hhigh := (r.rise_mem (hv.trans hle) hmax).2
  exact r.mono (by linarith) (by linarith)

theorem level_zero (max : ℚ) : r.level max 0 = 105 := by
  have hzero : r.round 0 = 0 := by exact_mod_cast r.round_natural (n := 0) (by omega)
  have hbottom : r.round 105 = 105 := by exact_mod_cast r.round_natural (n := 105) (by omega)
  rw [level, rise, zero_div, hzero, mul_zero, hzero, sub_zero, hbottom]

/-- The maximum is placed at the top, if it is not zero. -/
theorem level_max (h : 0 < max) : r.level max max = 5 := by
  have hone : r.round 1 = 1 := by exact_mod_cast r.round_natural (n := 1) (by omega)
  have hspan : r.round 100 = 100 := by exact_mod_cast r.round_natural (n := 100) (by omega)
  have htop : r.round 5 = 5 := by exact_mod_cast r.round_natural (n := 5) (by omega)
  have hdifference : (105 - 100 : ℚ) = 5 := by norm_num
  rw [level, rise, measure, if_neg h.ne', div_self h.ne', hone, mul_one, hspan, hdifference, htop]

/-! ## The height of a value -/

theorem standsFor_divisor (htop : r.standsFor top max) :
    r.standsFor (divisor top) (measure max) := by
  unfold divisor measure
  by_cases hzero : max = 0
  · rw [if_pos ((r.isZero_iff htop).2 hzero), if_pos hzero]
    exact_mod_cast r.natural (n := 1) (by omega)
  · rw [if_neg (fun h => hzero ((r.isZero_iff htop).1 h)), if_neg hzero]
    exact htop

theorem standsFor_height (htop : r.standsFor top max) (hx : r.standsFor x v) (hle : v ≤ max) :
    r.standsFor (height top x) (r.level max v) := by
  have hv := r.nonneg hx
  have hpos := measure_pos (hv.trans hle)
  obtain ⟨-, hone⟩ := r.quotient_mem hv hle
  obtain ⟨-, hspan⟩ := r.rise_mem hv hle
  have hquotient : r.standsFor (x / divisor top) (r.round (v / measure max)) :=
    r.div hx (r.standsFor_divisor htop) hpos (by linarith [div_measure_le hv hle])
  have hrise : r.standsFor (span * (x / divisor top)) (r.rise max v) := by
    have hhundred := r.natural (n := 100) (by omega)
    have hproduct := r.mul hhundred hquotient (by push_cast; linarith)
    exact_mod_cast hproduct
  have hbottom := r.natural (n := 105) (by omega)
  have hdifference := r.sub hbottom hrise (by push_cast; linarith) (by norm_num)
  exact_mod_cast hdifference

/-! ## The largest value -/

theorem unique (h : r.standsFor x v) (h' : r.standsFor x w) : v = w := by
  have hle := (r.lt_iff h h').not.1 ((r.lt_iff h h).not.2 (lt_irrefl v))
  have hge := (r.lt_iff h' h).not.1 ((r.lt_iff h h).not.2 (lt_irrefl v))
  exact le_antisymm (not_lt.1 hge) (not_lt.1 hle)

theorem standsFor_larger (hx : r.standsFor x v) (hy : r.standsFor y w) :
    r.standsFor (larger x y) (Max.max v w) := by
  unfold larger
  by_cases hlt : v < w
  · rw [if_pos ((r.lt_iff hx hy).2 hlt), max_eq_right hlt.le]
    exact hy
  · rw [if_neg (fun h => hlt ((r.lt_iff hx hy).1 h)), max_eq_left (not_lt.1 hlt)]
    exact hx

/-- The largest value stands for the largest number. -/
theorem standsFor_maximum {values : Slots α} (h : ∀ x ∈ values.toList, ∃ v, r.standsFor x v) :
    ∃ max, r.standsFor (maximum values) max ∧
      ∀ x ∈ values.toList, ∀ v, r.standsFor x v → v ≤ max := by
  obtain ⟨a, b, c, d⟩ := values
  obtain ⟨u₁, h₁⟩ := h a (by simp [Slots.toList])
  obtain ⟨u₂, h₂⟩ := h b (by simp [Slots.toList])
  obtain ⟨u₃, h₃⟩ := h c (by simp [Slots.toList])
  obtain ⟨u₄, h₄⟩ := h d (by simp [Slots.toList])
  refine ⟨_, r.standsFor_larger (r.standsFor_larger (r.standsFor_larger h₁ h₂) h₃) h₄, ?_⟩
  intro x hx v hv
  simp only [Slots.toList, List.mem_cons, List.not_mem_nil, or_false] at hx
  rcases hx with rfl | rfl | rfl | rfl
  · simp [r.unique hv h₁]
  · simp [r.unique hv h₂]
  · simp [r.unique hv h₃]
  · simp [r.unique hv h₄]

end Rounding

theorem maximum_mem {α : Type} [ChartArithmetic α] (values : Slots α) :
    maximum values ∈ values.toList := by
  have hlarger (a b : α) : larger a b = a ∨ larger a b = b := by
    unfold larger
    split
    · exact .inr rfl
    · exact .inl rfl
  unfold maximum
  simp only [Slots.toList, List.mem_cons, List.not_mem_nil, or_false]
  rcases hlarger (larger (larger values.first values.second) values.third) values.fourth with h | h
  · rcases hlarger (larger values.first values.second) values.third with h' | h'
    · rcases hlarger values.first values.second with h'' | h''
      · exact .inl (h.trans (h'.trans h''))
      · exact .inr (.inl (h.trans (h'.trans h'')))
    · exact .inr (.inr (.inl (h.trans h')))
  · exact .inr (.inr (.inr h))

/-! ## Floats -/

open Binary64 (StandsFor)

/-- Numbers on a chart are far below the largest float. -/
theorem lt_of_le_bottom {v : ℚ} (h : v ≤ 105) : v < 2 ^ (1023 : Int) := by
  have hpower : (2 : ℚ) ^ (7 : Int) ≤ 2 ^ (1023 : Int) :=
    zpow_le_zpow_right₀ (by norm_num) (by norm_num)
  have hsmall : (105 : ℚ) < 2 ^ (7 : Int) := by norm_num
  exact h.trans_lt (hsmall.trans_le hpower)

def floatRounding : Rounding Float where
  standsFor := StandsFor
  round := Binary64.nearest
  mono := Binary64.nearest_mono
  keeps := Binary64.Means.nearest_eq
  nonneg := Binary64.Means.nonneg
  natural h := Binary64.standsFor_ofNat (by omega)
  lt_iff := StandsFor.lt_iff
  isZero_iff h := h.beq_iff Binary64.standsFor_zero
  div hx hy hw hle := hx.div hy hw (lt_of_le_bottom hle)
  mul hx hy hle := hx.mul hy (lt_of_le_bottom hle)
  sub hx hy hle hv := hx.sub hy hle (lt_of_le_bottom hv)

end Scale

namespace Series

open Binary64 (StandsFor)

variable {s : Series} {v w : Float} {p q : Point} {a top : ℚ}

/-- Does the value stand in some slot, and is it placed at this point? -/
def Places (s : Series) (v : Float) (p : Point) : Prop := (v, p) ∈ s.values.toList.zip s.points

theorem Places.mem (h : s.Places v p) : v ∈ s.values.toList := (List.of_mem_zip h).1

theorem Places.y_eq (h : s.Places v p) : p.y = Scale.height s.max v := by
  have hslots : (v, p) ∈ s.values.toList.zip
      (List.zipWith Point.mk Viewport.slotX.toList (s.values.toList.map (Scale.height s.max))) := h
  simp only [Slots.toList, List.map_cons, List.map_nil, List.zipWith_cons_cons,
    List.zipWith_nil_left, List.zip_cons_cons, List.zip_nil_left, List.mem_cons, Prod.mk.injEq,
    List.not_mem_nil, or_false] at hslots
  rcases hslots with ⟨rfl, rfl⟩ | ⟨rfl, rfl⟩ | ⟨rfl, rfl⟩ | ⟨rfl, rfl⟩ <;> rfl

theorem exists_places (hp : p ∈ s.points) : ∃ v, s.Places v p := by
  obtain ⟨i, hi⟩ := List.mem_iff_getElem?.1 hp
  have hlt : i < s.values.toList.length := (List.getElem?_eq_some_iff.1 hi).1
  exact ⟨s.values.toList[i], List.mem_of_getElem?
    (List.getElem?_zip_eq_some.2 ⟨List.getElem?_eq_getElem hlt, hi⟩)⟩

theorem exists_standsFor (hv : v ∈ s.values.toList) : ∃ a, StandsFor v a := by
  obtain ⟨hfinite, hsign⟩ := isPlottable_iff.1 (s.plottable v hv)
  exact Binary64.exists_standsFor hfinite hsign

/-- A point is at the height of what its value stands for. -/
theorem exists_level (s : Series) :
    ∃ top, StandsFor s.max top ∧ ∀ v p, s.Places v p → ∃ a, StandsFor v a ∧ a ≤ top ∧
      StandsFor p.y (Scale.floatRounding.level top a) := by
  obtain ⟨top, htop, hmost⟩ : ∃ top, StandsFor s.max top ∧
      ∀ v ∈ s.values.toList, ∀ a, StandsFor v a → a ≤ top :=
    Scale.floatRounding.standsFor_maximum fun _ => exists_standsFor
  refine ⟨top, htop, fun v p hp => ?_⟩
  obtain ⟨a, ha⟩ := exists_standsFor hp.mem
  have hle := hmost v hp.mem a ha
  rw [hp.y_eq]
  exact ⟨a, ha, hle, Scale.floatRounding.standsFor_height htop ha hle⟩

theorem standsFor_five : StandsFor 5.0 5 := by
  have hliteral : (5.0 : Float) = Float.ofNat 5 := rfl
  rw [hliteral]
  exact_mod_cast Binary64.standsFor_ofNat (n := 5) (by norm_num)

theorem standsFor_bottom : StandsFor 105.0 105 := by
  have hliteral : (105.0 : Float) = Float.ofNat 105 := rfl
  rw [hliteral]
  exact_mod_cast Binary64.standsFor_ofNat (n := 105) (by norm_num)

/-- A zero of either sign is at the bottom. -/
theorem Places.y_of_zero (hp : s.Places v p) (hv : (v == 0.0) = true) : p.y = 105.0 := by
  obtain ⟨top, -, hlevel⟩ := s.exists_level
  obtain ⟨a, ha, -, hy⟩ := hlevel v p hp
  obtain rfl := (ha.beq_iff Binary64.standsFor_zero).1 hv
  rw [Scale.floatRounding.level_zero] at hy
  exact hy.eq standsFor_bottom (by norm_num)

theorem Places.y_of_max (hp : s.Places v p) (hv : 0.0 < v)
    (hlargest : ∀ w ∈ s.values.toList, w ≤ v) : p.y = 5.0 := by
  obtain ⟨top, htop, hlevel⟩ := s.exists_level
  obtain ⟨a, ha, hle, hy⟩ := hlevel v p hp
  have hpos := (Binary64.standsFor_zero.lt_iff ha).1 hv
  -- the largest value is one of the values
  have hge := (htop.le_iff ha).1 (hlargest _ (Scale.maximum_mem s.values))
  obtain rfl := le_antisymm hle hge
  rw [Scale.floatRounding.level_max hpos] at hy
  exact hy.eq standsFor_five (by norm_num)

theorem Places.y_mem (hp : s.Places v p) : p.y.isFinite = true ∧ 5.0 ≤ p.y ∧ p.y ≤ 105.0 := by
  obtain ⟨top, -, hlevel⟩ := s.exists_level
  obtain ⟨a, ha, hle, hy⟩ := hlevel v p hp
  obtain ⟨hlow, hhigh⟩ := Scale.floatRounding.level_mem ha.nonneg hle
  exact ⟨hy.isFinite, (standsFor_five.le_iff hy).2 hlow, (hy.le_iff standsFor_bottom).2 hhigh⟩

/-- A larger value is not placed lower. -/
theorem Places.y_anti (hp : s.Places v p) (hq : s.Places w q) (hle : v ≤ w) : q.y ≤ p.y := by
  obtain ⟨top, -, hlevel⟩ := s.exists_level
  obtain ⟨a, ha, -, hy⟩ := hlevel v p hp
  obtain ⟨b, hb, hb', hy'⟩ := hlevel w q hq
  exact (hy'.le_iff hy).2 (Scale.floatRounding.level_anti ha.nonneg ((ha.le_iff hb).1 hle) hb')

/-- The points of a series have the x positions of the slots in order.  Each is at a finite height
between 5.0 and 105.0: a zero of either sign at exactly 105.0, and a maximum, if it is positive, at
exactly 5.0.  So a series of zeros is a flat line at 105.0.  A larger value is never placed lower
than a smaller one. -/
theorem points_in_range_in_order (s : Series) :
    s.points.map Point.x = [10.0, 80.0, 160.0, 230.0] ∧
    (∀ p ∈ s.points, p.y.isFinite = true ∧ 5.0 ≤ p.y ∧ p.y ≤ 105.0) ∧
    (∀ v p, s.Places v p → (v == 0.0) = true → p.y = 105.0) ∧
    (∀ v p, s.Places v p → 0.0 < v → (∀ w ∈ s.values.toList, w ≤ v) → p.y = 5.0) ∧
    ((∀ v ∈ s.values.toList, (v == 0.0) = true) → ∀ p ∈ s.points, p.y = 105.0) ∧
    ∀ v w p q, s.Places v p → s.Places w q → v ≤ w → q.y ≤ p.y := by
  refine ⟨rfl, ?_, fun v p => Places.y_of_zero, fun v p => Places.y_of_max, ?_,
    fun v w p q => Places.y_anti⟩
  · intro p hp
    obtain ⟨v, hv⟩ := exists_places hp
    exact hv.y_mem
  · intro hall p hp
    obtain ⟨v, hv⟩ := exists_places hp
    exact hv.y_of_zero (hall v hv.mem)

/-- The two zeros, the smallest positive float and the largest. -/
def extremes : Series where
  values := ⟨0.0, -0.0, 5e-324, 1.7976931348623157e308⟩
  plottable := by decide +kernel

/-- The negative zero is at the bottom, the largest float at the top, and the smallest one between
them. -/
theorem points_extremes :
    ∃ p q r, extremes.Places (-0.0) p ∧ extremes.Places 5e-324 q ∧
      extremes.Places 1.7976931348623157e308 r ∧
      p.y = 105.0 ∧ r.y = 5.0 ∧ q.y ≤ p.y ∧ r.y ≤ q.y ∧ q.y.isFinite = true := by
  obtain ⟨-, hrange, hzero, htop, -, horder⟩ := points_in_range_in_order extremes
  have hp : extremes.Places (-0.0) _ := .tail _ (.head _)
  have hq : extremes.Places 5e-324 _ := .tail _ (.tail _ (.head _))
  have hr : extremes.Places 1.7976931348623157e308 _ := .tail _ (.tail _ (.tail _ (.head _)))
  exact ⟨_, _, _, hp, hq, hr, hzero _ _ hp (by decide +kernel),
    htop _ _ hr (by decide +kernel) (by decide +kernel),
    horder _ _ _ _ hp hq (by decide +kernel), horder _ _ _ _ hq hr (by decide +kernel),
    (hrange _ (List.of_mem_zip hq).2).1⟩

end Series

end Sparkboard
