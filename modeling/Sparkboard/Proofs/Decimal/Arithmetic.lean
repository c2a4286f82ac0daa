import Sparkboard.Proofs.Decimal.Nearest
import Sparkboard.Proofs.Decimal.Scientific
/-!
# Arithmetic of floats that are not negative

A finite float that is not negative stands for a number (`exists_standsFor`).  Floats compare as
their numbers do (`Means.compare_eq`), and the float of a quotient, a product, a sum or a difference
stands for the nearest number to the exact one (`StandsFor.div`, `StandsFor.mul`, `StandsFor.add`,
`StandsFor.sub`), as long as that is not too large.
-/

namespace Sparkboard

namespace Binary64

open Float.Model Float.Model.UnpackedFloat

variable {n m m₁ m₂ : Nat} {e e₁ e₂ : Int} {v w : ℚ} {x y : Float} {f g : UnpackedFloat}

/-! ## What a float stands for -/

/-- Does a float stand for this number, which is not negative? -/
def StandsFor (x : Float) (v : ℚ) : Prop := Means x.toModel.unpack v

theorem unpack_zero (s : Sign) : (Float.Model.pack (.zero s)).unpack = .zero s := by
  cases s <;> rfl

theorem standsFor_pack (h : Means f v) : StandsFor (Float.ofModel (Float.Model.pack f)) v := by
  show Means (Float.Model.pack f).unpack v
  cases h with
  | zero s =>
    rw [unpack_zero]
    exact .zero s
  | positive hc =>
    have hunpack : (Float.Model.pack (.finite .positive _ _ hc.pos)).unpack =
        .finite .positive _ _ hc.pos := unpack_pack hc .positive
    rw [hunpack]
    exact .positive hc

theorem standsFor_toFloat (hc : Canonical m e) : StandsFor (toFloat false m e) (m * 2 ^ e) := by
  rw [toFloat_pos hc]
  exact standsFor_pack (.positive hc)

theorem StandsFor.nonneg (h : StandsFor x v) : 0 ≤ v := Means.nonneg h

theorem StandsFor.isFinite (h : StandsFor x v) : x.isFinite = true := by
  unfold StandsFor at h
  show UnpackedFloat.isFinite x.toModel.unpack = true
  generalize x.toModel.unpack = f at h ⊢
  cases h <;> rfl

/-! ## Comparing -/

/-- Of two floats with all their places the one with the smaller exponent is smaller. -/
theorem canonical_lt (h₁ : Canonical m₁ e₁) (h₂ : Canonical m₂ e₂) (he : e₁ < e₂) :
    (m₁ * 2 ^ e₁ : ℚ) < m₂ * 2 ^ e₂ := by
  have hleast := h₁.least
  have hlt : (m₁ : ℚ) < 2 ^ 53 := by exact_mod_cast h₁.lt
  have hge : (2 : ℚ) ^ 52 ≤ m₂ := by exact_mod_cast h₂.normal.resolve_right (by omega)
  calc (m₁ * 2 ^ e₁ : ℚ) < 2 ^ 53 * 2 ^ e₁ := mul_lt_mul_of_pos_right hlt (two_zpow_pos e₁)
    _ = 2 ^ 52 * 2 ^ (e₁ + 1) := by rw [zpow_add₀ (by norm_num)]; ring
    _ ≤ 2 ^ 52 * 2 ^ e₂ :=
      mul_le_mul_of_nonneg_left (zpow_le_zpow_right₀ (by norm_num) he) (by norm_num)
    _ ≤ m₂ * 2 ^ e₂ := mul_le_mul_of_nonneg_right hge (two_zpow_pos e₂).le

theorem compare_canonical (h₁ : Canonical m₁ e₁) (h₂ : Canonical m₂ e₂) :
    (compare e₁ e₂).then (compare m₁ m₂) = compare (m₁ * 2 ^ e₁ : ℚ) (m₂ * 2 ^ e₂) := by
  rcases lt_trichotomy e₁ e₂ with he | rfl | he
  · rw [compare_lt_iff_lt.2 he, compare_lt_iff_lt.2 (canonical_lt h₁ h₂ he)]
    rfl
  · have hpos := two_zpow_pos e₁
    rw [compare_eq_iff_eq.2 rfl, Ordering.eq_then]
    rcases lt_trichotomy m₁ m₂ with hm | rfl | hm
    · have hlt : (m₁ : ℚ) < m₂ := by exact_mod_cast hm
      rw [compare_lt_iff_lt.2 hm, compare_lt_iff_lt.2 (mul_lt_mul_of_pos_right hlt hpos)]
    · rw [compare_eq_iff_eq.2 rfl, compare_eq_iff_eq.2 rfl]
    · have hlt : (m₂ : ℚ) < m₁ := by exact_mod_cast hm
      rw [compare_gt_iff_gt.2 hm, compare_gt_iff_gt.2 (mul_lt_mul_of_pos_right hlt hpos)]
  · rw [compare_gt_iff_gt.2 he, compare_gt_iff_gt.2 (canonical_lt h₂ h₁ he)]
    rfl

/-- **Floats compare as their numbers do.** -/
theorem Means.compare_eq (hf : Means f v) (hg : Means g w) :
    UnpackedFloat.compare f g = some (compare v w) := by
  cases hf with
  | zero =>
    cases hg with
    | zero => rw [compare_eq_iff_eq.2 rfl]; rfl
    | positive hc => rw [compare_lt_iff_lt.2 hc.value_pos]; rfl
  | positive h₁ =>
    cases hg with
    | zero => rw [compare_gt_iff_gt.2 h₁.value_pos]; rfl
    | positive h₂ =>
      rw [← compare_canonical h₁ h₂]
      rfl

theorem float_lt_iff :
    x < y ↔ (UnpackedFloat.compare x.toModel.unpack y.toModel.unpack == some .lt) = true :=
  decide_eq_true_iff

theorem float_le_iff :
    x ≤ y ↔ (UnpackedFloat.compare x.toModel.unpack y.toModel.unpack).any (·.isLE) = true :=
  decide_eq_true_iff

theorem StandsFor.lt_iff (hx : StandsFor x v) (hy : StandsFor y w) : x < y ↔ v < w := by
  rw [float_lt_iff, Means.compare_eq hx hy, beq_iff_eq, Option.some.injEq, compare_lt_iff_lt]

theorem StandsFor.le_iff (hx : StandsFor x v) (hy : StandsFor y w) : x ≤ y ↔ v ≤ w := by
  rw [float_le_iff, Means.compare_eq hx hy, ← compare_le_iff_le]
  exact Ordering.isLE_iff_ne_gt

theorem StandsFor.beq_iff (hx : StandsFor x v) (hy : StandsFor y w) : (x == y) = true ↔ v = w := by
  show (UnpackedFloat.compare x.toModel.unpack y.toModel.unpack == some .eq) = true ↔ _
  rw [Means.compare_eq hx hy, beq_iff_eq, Option.some.injEq, compare_eq_iff_eq]

/-! ## Which floats stand for a number -/

theorem unpack_float_zero : (0.0 : Float).toModel.unpack = .zero .positive := by
  have hzero : (0.0 : Float) = Float.ofModel (Float.Model.pack (.zero .positive)) := rfl
  rw [hzero]
  exact unpack_zero _

theorem standsFor_zero : StandsFor 0.0 0 := by
  unfold StandsFor
  rw [unpack_float_zero]
  exact .zero _

/-- A whole number that fits stands for itself. -/
theorem standsFor_ofNat (hn : n < 2 ^ 53) : StandsFor (Float.ofNat n) n := by
  rcases Nat.eq_zero_or_pos n with rfl | hpos
  · have hzero : Float.ofNat 0 = 0.0 := rfl
    rw [hzero, Nat.cast_zero]
    exact standsFor_zero
  · have hc := canonical_natural hpos hn
    have hvalue := natural_value n
    have hself := RoundsTo.self hc.pos (-(52 - n.log2 : Nat))
    rw [hvalue, ← mul_one (n : ℚ), ← zpow_zero (10 : ℚ)] at hself
    have hfloat : Float.ofScientific n false 0 = toFloat false _ _ :=
      ofScientific_of_roundsTo hpos hc rfl hself (by norm_num) (by omega)
    have hstands := standsFor_toFloat hc
    rw [hvalue, ← hfloat] at hstands
    exact hstands

/-- A finite float that is not negative is a zero or a positive float. -/
theorem zero_or_positive (hfinite : x.isFinite = true) (hx : ¬x < 0.0) :
    StandsFor x 0 ∨ ∃ m e, Canonical m e ∧ x = toFloat false m e := by
  obtain ⟨negative, m, e, hof⟩ := ofFloat_of_isFinite hfinite
  obtain rfl := toFloat_ofFloat hof
  by_cases hm : m = 0
  · subst hm
    exact .inl (standsFor_pack (.zero _))
  · have hc := canonical_of_ofFloat hof hm
    cases negative with
    | false => exact .inr ⟨m, e, hc, rfl⟩
    | true =>
      have hunpack : (toFloat true m e).toModel.unpack = .finite .negative m e hc.pos := by
        rw [toFloat_eq hc]
        exact unpack_pack hc .negative
      refine absurd (float_lt_iff.2 ?_) hx
      rw [hunpack, unpack_float_zero]
      rfl

theorem exists_standsFor (hfinite : x.isFinite = true) (hx : ¬x < 0.0) : ∃ v, StandsFor x v := by
  rcases zero_or_positive hfinite hx with hzero | ⟨m, e, hc, rfl⟩
  · exact ⟨0, hzero⟩
  · exact ⟨_, standsFor_toFloat hc⟩

theorem StandsFor.unique (h : StandsFor x v) (h' : StandsFor x w) : v = w :=
  (h.beq_iff h').1 ((h.beq_iff h).2 rfl)

/-- A float that stands for a positive number has all its places. -/
theorem StandsFor.exists_canonical (h : StandsFor x v) (hv : 0 < v) :
    ∃ m e, Canonical m e ∧ x = toFloat false m e ∧ v = m * 2 ^ e := by
  have hx : ¬x < 0.0 := fun hlt => hv.not_gt ((h.lt_iff standsFor_zero).1 hlt)
  rcases zero_or_positive h.isFinite hx with hzero | ⟨m, e, hc, rfl⟩
  · exact absurd (h.unique hzero) hv.ne'
  · exact ⟨m, e, hc, rfl, h.unique (standsFor_toFloat hc)⟩

theorem StandsFor.eq (hx : StandsFor x v) (hy : StandsFor y v) (hv : 0 < v) : x = y := by
  obtain ⟨m₁, e₁, h₁, rfl, hv₁⟩ := hx.exists_canonical hv
  obtain ⟨m₂, e₂, h₂, rfl, hv₂⟩ := hy.exists_canonical hv
  have hsame := compare_canonical h₁ h₂
  rw [compare_eq_iff_eq.2 (hv₁.symm.trans hv₂), Ordering.then_eq_eq, compare_eq_iff_eq,
    compare_eq_iff_eq] at hsame
  rw [hsame.1, hsame.2]

/-! ## Quotients, products, sums and differences -/

theorem Means.div (hf : Means f v) (hg : Means g w) (hw : 0 < w) (hlt : v / w < 2 ^ (1023 : Int)) :
    Means (UnpackedFloat.div .binary64 f g) (nearest (v / w)) := by
  cases hg with
  | zero => exact absurd hw (lt_irrefl 0)
  | positive h₂ =>
    cases hf with
    | zero s =>
      rw [zero_div, nearest_zero]
      exact .zero _
    | positive h₁ =>
      obtain ⟨n, x, hn, hround, hplaces, hvalue⟩ := div_eq_round h₁.pos h₂.pos _ _
      rw [← hvalue] at hlt ⊢
      rw [hround]
      exact roundWithAccuracy_nearest h₂.pos hn hplaces hlt

theorem productPlaces (h₁ : Canonical m₁ e₁) (h₂ : Canonical m₂ e₂) :
    e₁ + e₂ ≤ Format.binary64.targetExponent (totalExponent (m₁ * m₂) (e₁ + e₂)) := by
  have hpos : 0 < m₁ * m₂ := Nat.mul_pos h₁.pos h₂.pos
  rw [targetExponent_eq, totalExponent_eq]
  by_cases hplaces : 2 ^ 52 ≤ m₁ * m₂
  · have hlog := (Nat.le_log2 hpos.ne').2 hplaces
    omega
  · have hle₁ : m₁ ≤ m₁ * m₂ := Nat.le_mul_of_pos_right m₁ h₂.pos
    have he₁ : e₁ = -1074 := h₁.normal.resolve_left (by omega)
    have hle₂ : m₂ ≤ m₁ * m₂ := Nat.le_mul_of_pos_left m₂ h₁.pos
    have he₂ : e₂ = -1074 := h₂.normal.resolve_left (by omega)
    omega

theorem Means.mul (hf : Means f v) (hg : Means g w) (hlt : v * w < 2 ^ (1023 : Int)) :
    Means (UnpackedFloat.mul .binary64 f g) (nearest (v * w)) := by
  cases hf with
  | zero s =>
    rw [zero_mul, nearest_zero]
    cases hg <;> exact .zero _
  | @positive m₁ e₁ h₁ =>
    cases hg with
    | zero =>
      rw [mul_zero, nearest_zero]
      exact .zero _
    | @positive m₂ e₂ h₂ =>
      have hvalue : ((m₁ * m₂ : Nat) * 2 ^ (e₁ + e₂) : ℚ) = m₁ * 2 ^ e₁ * (m₂ * 2 ^ e₂) := by
        rw [zpow_add₀ (by norm_num)]
        push_cast
        ring
      rw [← hvalue] at hlt ⊢
      exact roundWithAccuracy_exact_nearest (Nat.mul_pos h₁.pos h₂.pos) (productPlaces h₁ h₂) hlt

theorem log2_mul_two_pow (hpos : 0 < m) (k : Nat) : (m * 2 ^ k).log2 = m.log2 + k := by
  induction k with
  | zero => rw [Nat.pow_zero, Nat.mul_one, Nat.add_zero]
  | succ k ih =>
    have hne : m * 2 ^ k ≠ 0 := (Nat.mul_pos hpos (Nat.pow_pos (by omega))).ne'
    rw [Nat.pow_succ', Nat.mul_left_comm, Nat.log2_two_mul hne, ih, Nat.add_assoc]

/-- A whole number of units is rounded, whether it has all the places of a float or not. -/
theorem means_round (hpos : 0 < m) (hlt : (m * 2 ^ e : ℚ) < 2 ^ (1023 : Int)) :
    Means (UnpackedFloat.round .binary64 .positive m e) (nearest (m * 2 ^ e)) := by
  unfold UnpackedFloat.round decreaseExponent
  dsimp only
  generalize hk : (e - Format.binary64.targetExponent (totalExponent m e)).toNat = k
  rw [targetExponent_eq, totalExponent_eq] at hk
  have hvalue : ((m * 2 ^ k : Nat) * 2 ^ (e - k) : ℚ) = m * 2 ^ e := by
    rw [zpow_sub₀ (by norm_num), zpow_natCast]
    push_cast
    field_simp
  have hplaces : e - k ≤ Format.binary64.targetExponent (totalExponent (m * 2 ^ k) (e - k)) := by
    rw [targetExponent_eq, totalExponent_eq, log2_mul_two_pow hpos]
    omega
  rw [← hvalue] at hlt ⊢
  rw [Nat.shiftLeft_eq]
  exact roundWithAccuracy_exact_nearest (Nat.mul_pos hpos (Nat.pow_pos (by omega))) hplaces hlt

/-- A whole number of units that is not zero is normalized to the nearest float. -/
theorem means_normalize (hpos : 0 < m) (hlt : (m * 2 ^ e : ℚ) < 2 ^ (1023 : Int)) :
    Means (UnpackedFloat.normalize .binary64 m e .positive) (nearest (m * 2 ^ e)) := by
  have hpositive : compare (m : Int) 0 = .gt := by
    rw [Int.compare_eq_gt]
    omega
  unfold UnpackedFloat.normalize
  rw [hpositive]
  exact means_round hpos hlt

theorem value_in_units {u : Int} (he : u ≤ e) :
    ((m * 2 ^ (e - u).toNat : Nat) : ℚ) * 2 ^ u = m * 2 ^ e := by
  have hsplit : (2 : ℚ) ^ e = 2 ^ (e - u).toNat * 2 ^ u := by
    rw [← zpow_natCast, ← zpow_add₀ (by norm_num)]
    congr 1
    omega
  push_cast
  rw [hsplit]
  ring

/-- The exact sum of two floats that are not zero is rounded. -/
theorem means_add_positive (h₁ : Canonical m₁ e₁) (h₂ : Canonical m₂ e₂)
    (hlt : (m₁ * 2 ^ e₁ + m₂ * 2 ^ e₂ : ℚ) < 2 ^ (1023 : Int)) :
    Means (UnpackedFloat.add .binary64 (.finite .positive m₁ e₁ h₁.pos)
      (.finite .positive m₂ e₂ h₂.pos)) (nearest (m₁ * 2 ^ e₁ + m₂ * 2 ^ e₂)) := by
  -- both in units of the smaller exponent
  obtain ⟨u, hu⟩ : ∃ u, u = min e₁ e₂ := ⟨_, rfl⟩
  have hv := value_in_units (m := m₁) (show u ≤ e₁ by omega)
  have hw := value_in_units (m := m₂) (show u ≤ e₂ by omega)
  show Means (UnpackedFloat.normalize .binary64 ((m₁ <<< (e₁ - min e₁ e₂).toNat : Nat) +
    (m₂ <<< (e₂ - min e₁ e₂).toNat : Nat) : Int) (min e₁ e₂) .positive) _
  rw [← hu, Nat.shiftLeft_eq, Nat.shiftLeft_eq]
  have hpos : 0 < m₁ * 2 ^ (e₁ - u).toNat := Nat.mul_pos h₁.pos (Nat.pow_pos (by omega))
  generalize m₁ * 2 ^ (e₁ - u).toNat = a at hv hpos ⊢
  generalize m₂ * 2 ^ (e₂ - u).toNat = b at hw ⊢
  have hsum : (m₁ * 2 ^ e₁ + m₂ * 2 ^ e₂ : ℚ) = (a + b : Nat) * 2 ^ u := by
    rw [← hv, ← hw, Nat.cast_add, add_mul]
  rw [hsum] at hlt ⊢
  exact means_normalize (by omega) hlt

/-- The exact difference of two floats that are not zero is rounded. -/
theorem means_sub_positive (h₁ : Canonical m₁ e₁) (h₂ : Canonical m₂ e₂)
    (hle : (m₂ * 2 ^ e₂ : ℚ) ≤ m₁ * 2 ^ e₁) (hlt : (m₁ * 2 ^ e₁ : ℚ) < 2 ^ (1023 : Int)) :
    Means (UnpackedFloat.sub .binary64 (.finite .positive m₁ e₁ h₁.pos)
      (.finite .positive m₂ e₂ h₂.pos)) (nearest (m₁ * 2 ^ e₁ - m₂ * 2 ^ e₂)) := by
  obtain ⟨u, hu⟩ : ∃ u, u = min e₁ e₂ := ⟨_, rfl⟩
  have hv := value_in_units (m := m₁) (show u ≤ e₁ by omega)
  have hw := value_in_units (m := m₂) (show u ≤ e₂ by omega)
  show Means (UnpackedFloat.normalize .binary64 ((m₁ <<< (e₁ - min e₁ e₂).toNat : Nat) -
    (m₂ <<< (e₂ - min e₁ e₂).toNat : Nat) : Int) (min e₁ e₂) .positive) _
  rw [← hu, Nat.shiftLeft_eq, Nat.shiftLeft_eq]
  generalize m₁ * 2 ^ (e₁ - u).toNat = a at hv ⊢
  generalize m₂ * 2 ^ (e₂ - u).toNat = b at hw ⊢
  rw [← hv, ← hw] at hle ⊢
  rw [← hv] at hlt
  have hba : b ≤ a := by exact_mod_cast le_of_mul_le_mul_right hle (two_zpow_pos u)
  have hdifference : (a * 2 ^ u - b * 2 ^ u : ℚ) = (a - b : Nat) * 2 ^ u := by
    rw [Nat.cast_sub hba, sub_mul]
  rw [hdifference, ← Int.ofNat_sub hba]
  rcases hba.eq_or_lt with rfl | hlt'
  · rw [Nat.sub_self, Nat.cast_zero (R := ℚ), zero_mul, nearest_zero]
    exact .zero _
  · refine means_normalize (by omega) (lt_of_le_of_lt ?_ hlt)
    rw [← hdifference]
    linarith [mul_nonneg (Nat.cast_nonneg (α := ℚ) b) (two_zpow_pos u).le]

theorem Means.add (hf : Means f v) (hg : Means g w) (hlt : v + w < 2 ^ (1023 : Int)) :
    Means (UnpackedFloat.add .binary64 f g) (nearest (v + w)) := by
  cases hf with
  | zero s =>
    rw [zero_add]
    cases hg with
    | zero s' =>
      rw [nearest_zero]
      show Means (if s == s' then .zero s else .zero .positive) 0
      split <;> exact .zero _
    | positive h₂ =>
      rw [nearest_canonical h₂]
      exact .positive h₂
  | positive h₁ =>
    cases hg with
    | zero s' =>
      rw [add_zero, nearest_canonical h₁]
      exact .positive h₁
    | positive h₂ => exact means_add_positive h₁ h₂ hlt

theorem Means.sub (hf : Means f v) (hg : Means g w) (hle : w ≤ v) (hlt : v < 2 ^ (1023 : Int)) :
    Means (UnpackedFloat.sub .binary64 f g) (nearest (v - w)) := by
  cases hg with
  | zero s =>
    rw [sub_zero]
    cases hf with
    | zero s' =>
      rw [nearest_zero]
      show Means (if s' == -s then .zero s' else .zero .positive) 0
      split <;> exact .zero _
    | positive h₁ =>
      rw [nearest_canonical h₁]
      exact .positive h₁
  | positive h₂ =>
    cases hf with
    | zero => exact absurd hle h₂.value_pos.not_ge
    | positive h₁ => exact means_sub_positive h₁ h₂ hle hlt

section

variable (hx : StandsFor x v) (hy : StandsFor y w)

include hx hy

theorem StandsFor.div (hw : 0 < w) (hlt : v / w < 2 ^ (1023 : Int)) :
    StandsFor (x / y) (nearest (v / w)) :=
  standsFor_pack (Means.div hx hy hw hlt)

theorem StandsFor.mul (hlt : v * w < 2 ^ (1023 : Int)) : StandsFor (x * y) (nearest (v * w)) :=
  standsFor_pack (Means.mul hx hy hlt)

theorem StandsFor.add (hlt : v + w < 2 ^ (1023 : Int)) : StandsFor (x + y) (nearest (v + w)) :=
  standsFor_pack (Means.add hx hy hlt)

theorem StandsFor.sub (hle : w ≤ v) (hlt : v < 2 ^ (1023 : Int)) :
    StandsFor (x - y) (nearest (v - w)) :=
  standsFor_pack (Means.sub hx hy hle hlt)

end

/-- Whole numbers that fit are added exactly. -/
theorem ofNat_add (h : m + n < 2 ^ 53) : Float.ofNat m + Float.ofNat n = Float.ofNat (m + n) := by
  rcases Nat.eq_zero_or_pos (m + n) with hzero | hpos
  · obtain ⟨rfl, rfl⟩ := Nat.add_eq_zero_iff.1 hzero
    rfl
  · have hexact := standsFor_ofNat h
    have hsmall : ((m + n : Nat) : ℚ) < 2 ^ (1023 : Int) := by
      have hpower : (2 : ℚ) ^ (53 : Int) ≤ 2 ^ (1023 : Int) :=
        zpow_le_zpow_right₀ (by norm_num) (by norm_num)
      exact lt_of_lt_of_le (by exact_mod_cast h) hpower
    have hsum := StandsFor.add (standsFor_ofNat (n := m) (by omega))
      (standsFor_ofNat (n := n) (by omega)) (by exact_mod_cast hsmall)
    rw [← Nat.cast_add, Means.nearest_eq hexact] at hsum
    exact hsum.eq hexact (by exact_mod_cast hpos)

end Binary64

end Sparkboard
