import Mathlib.Algebra.Order.Field.Power
import Mathlib.Data.Rat.Cast.Order
import Mathlib.Tactic.FieldSimp
import Mathlib.Tactic.Linarith
import Mathlib.Tactic.Positivity
import Mathlib.Tactic.Ring
import Sparkboard.Proofs.Decimal.Packing
/-!
# Rounding to a float

Around each float lies an interval of numbers that round to it (`RoundsTo`).  Float arithmetic works
out a quotient of whole numbers to a certain place and keeps how its rest compares with a half
(`extended`), which is enough to round it at any higher place.  So a quotient in the interval of a
float is rounded to that float (`roundWithAccuracy_of_roundsTo`), and with it a product and a
quotient of floats.
-/

namespace Sparkboard

namespace Binary64

open Float.Model Float.Model.UnpackedFloat

/-- How many quarters of the last place lie between a float and the middle to the next smaller one.
Below a power of two the floats are twice as dense. -/
def quartersBelow (m : Nat) (e : Int) : Nat :=
  if m = leastNormal ∧ e ≠ leastExponent then 1 else 2

/-- Does `v` round to the float `m * 2 ^ e`?  It lies between the middles to the neighbours of the
float, which themselves go to an even mantissa. -/
structure RoundsTo (m : Nat) (e : Int) (v : ℚ) : Prop where
  low : ((4 * m - quartersBelow m e : Nat) : ℚ) * 2 ^ e ≤ 4 * v
  high : 4 * v ≤ ((4 * m + 2 : Nat) : ℚ) * 2 ^ e
  odd : m % 2 = 1 → ((4 * m - quartersBelow m e : Nat) : ℚ) * 2 ^ e < 4 * v ∧
    4 * v < ((4 * m + 2 : Nat) : ℚ) * 2 ^ e

variable {m num den : Nat} {e x : Int} {v : ℚ}

/-! ## Rounding a quotient -/

theorem roundDiv_eq (hden : 0 < den) (hlow : 2 * (m * den) ≤ 2 * num + den)
    (hhigh : 2 * num ≤ 2 * (m * den) + den)
    (hodd : m % 2 = 1 → 2 * (m * den) < 2 * num + den ∧ 2 * num < 2 * (m * den) + den) :
    roundDiv .toEven num den = m := by
  have hdivision := Nat.div_add_mod num den
  have hrest := Nat.mod_lt num hden
  rw [Nat.mul_comm] at hdivision
  have hle : num / den ≤ m := by
    by_contra hlt
    have hmul : (m + 1) * den ≤ num / den * den := Nat.mul_le_mul_right _ (by omega)
    rw [Nat.add_mul] at hmul
    omega
  have hge : m ≤ num / den + 1 := by
    by_contra hlt
    have hmul : (num / den + 2) * den ≤ m * den := Nat.mul_le_mul_right _ (by omega)
    rw [Nat.add_mul] at hmul
    omega
  unfold roundDiv
  dsimp only
  rcases (by omega : m = num / den ∨ m = num / den + 1) with hm | hm
  · rw [← hm] at hdivision ⊢
    split
    · rfl
    split
    · omega
    · split
      · rfl
      · have := hodd (by omega)
        omega
  · rw [hm, Nat.add_mul] at hlow hhigh hodd
    split
    · omega
    split
    · omega
    · split
      · have := hodd (by omega)
        omega
      · omega


/-- The whole part of a quotient, and how its fraction compares with a half. -/
def extended (num den : Nat) : ExtendedMantissa where
  mantissa := num / den
  roundBit := den ≤ 2 * (num % den)
  stickyBit := 2 * (num % den) ≠ 0 && 2 * (num % den) ≠ den

theorem ofMantissaAndAccuracy_eq (hden : 0 < den) :
    ExtendedMantissa.ofMantissaAndAccuracy (num / den) (accuracyOfFraction (num % den) den) =
      extended num den := by
  unfold accuracyOfFraction extended
  by_cases hexact : num % den = 0
  · have hpos : ¬den ≤ 0 := by omega
    simp [ExtendedMantissa.ofMantissaAndAccuracy, hexact, hpos]
  · rw [if_neg hexact]
    rcases Nat.lt_trichotomy (2 * (num % den)) den with h | h | h
    · have hle : ¬den ≤ 2 * (num % den) := by omega
      rw [Nat.compare_eq_lt.2 h]
      simp [ExtendedMantissa.ofMantissaAndAccuracy, hexact, hle, h.ne]
    · rw [Nat.compare_eq_eq.2 h]
      simp [ExtendedMantissa.ofMantissaAndAccuracy, h]
    · rw [Nat.compare_eq_gt.2 h]
      simp [ExtendedMantissa.ofMantissaAndAccuracy, hexact, h.le, h.ne']

/-- A bit that is shifted out of the quotient is kept in the comparison with a half. -/
theorem shiftRightOne_extended (hden : 0 < den) :
    (extended num den).shiftRightOne = extended num (2 * den) := by
  have hrest := Nat.mod_lt num hden
  have hmod : num % (2 * den) = num % den + den * (num / den % 2) := by
    rw [Nat.mul_comm, Nat.mod_mul]
  have hdiv : num / (2 * den) = num / den / 2 := by
    rw [Nat.mul_comm, Nat.div_div_eq_div_mul]
  unfold extended ExtendedMantissa.shiftRightOne
  dsimp only
  rw [hdiv, hmod]
  generalize num % den = rest at hrest ⊢
  have hround : (num / den % 2 != 0) = decide (2 * den ≤ 2 * (rest + den * (num / den % 2))) := by
    rw [Bool.eq_iff_iff]
    rcases Nat.mod_two_eq_zero_or_one (num / den) with hbit | hbit
    · simp [hbit]
      omega
    · simp [hbit]
  have hsticky : (decide (den ≤ 2 * rest) || (decide (2 * rest ≠ 0) && decide (2 * rest ≠ den))) =
      (decide (2 * (rest + den * (num / den % 2)) ≠ 0) &&
        decide (2 * (rest + den * (num / den % 2)) ≠ 2 * den)) := by
    rw [Bool.eq_iff_iff]
    rcases Nat.mod_two_eq_zero_or_one (num / den) with hbit | hbit
    · simp [hbit]
      omega
    · simp [hbit]
      omega
  rw [hround, hsticky]

theorem shiftRight_extended (hden : 0 < den) (k : Nat) :
    extended num den >>> k = extended num (den * 2 ^ k) := by
  show k.repeat ExtendedMantissa.shiftRightOne (extended num den) = _
  induction k with
  | zero => simp [Nat.repeat]
  | succ k ih =>
    rw [Nat.repeat, ih, shiftRightOne_extended (Nat.mul_pos hden (Nat.pow_pos (by omega))),
      Nat.pow_succ]
    congr 1
    ring

theorem roundedMantissa_extended (hden : 0 < den) :
    (extended num den).roundedMantissa = roundDiv .toEven num den := by
  have hrest := Nat.mod_lt num hden
  unfold extended roundDiv ExtendedMantissa.roundedMantissa
  dsimp only
  rcases Nat.lt_trichotomy (2 * (num % den)) den with h | h | h
  · have hround : ¬den ≤ 2 * (num % den) := by omega
    have hne : 2 * (num % den) ≠ den := h.ne
    by_cases hexact : num % den = 0
    · simp [hexact, hden, hden.ne', ExtendedMantissa.accuracy, Accuracy.roundToNearestEven]
    · simp [hround, hexact, hne, h, ExtendedMantissa.accuracy, Accuracy.roundToNearestEven]
  · rw [h]
    simp [ExtendedMantissa.accuracy, Accuracy.roundToNearestEven]
    split <;> omega
  · have hexact : num % den ≠ 0 := by omega
    simp [h.le, h.ne', h, h.not_gt, hexact, ExtendedMantissa.accuracy, Accuracy.roundToNearestEven]

/-! ## The place that is rounded to -/

theorem targetExponent_eq (total : Int) :
    Format.binary64.targetExponent total = max (total - 53) (-1074) := rfl

theorem totalExponent_eq (m : Nat) (e : Int) : totalExponent m e = m.log2 + 1 + e := rfl

theorem shiftToTargetExponent_fraction (hden : 0 < den) {t : Int} (hx : x ≤ t)
    (ht : Format.binary64.targetExponent (totalExponent (num / den) x) = t) :
    shiftToTargetExponent .binary64 (num / den) x (accuracyOfFraction (num % den) den) =
      (extended num (den * 2 ^ (t - x).toNat), t) := by
  unfold shiftToTargetExponent shiftToExponent
  rw [ht, ofMantissaAndAccuracy_eq hden]
  dsimp only
  rw [shiftRight_extended hden]
  congr 1
  omega

theorem shiftToTargetExponent_fits (hm : m < 2 ^ 53) (he : -1074 ≤ e) :
    shiftToTargetExponent .binary64 m e .exact = (⟨m, false, false⟩, e) := by
  have hlog : m.log2 < 53 := by
    by_cases hzero : m = 0
    · simp [hzero]
    · exact (Nat.log2_lt hzero).2 hm
  have htarget : (Format.binary64.targetExponent (totalExponent m e) - e).toNat = 0 := by
    rw [targetExponent_eq, totalExponent_eq]
    omega
  unfold shiftToTargetExponent shiftToExponent
  dsimp only
  rw [htarget]
  simp [ExtendedMantissa.ofMantissaAndAccuracy]
  rfl

/-- A mantissa that was rounded up to one bit too many is shifted once more. -/
theorem shiftToTargetExponent_carry (he : -1074 ≤ e) :
    shiftToTargetExponent .binary64 (2 ^ 53) e .exact = (⟨2 ^ 52, false, false⟩, e + 1) := by
  have hlog : (2 ^ 53).log2 = 53 := Nat.log2_two_pow
  have htarget : (Format.binary64.targetExponent (totalExponent (2 ^ 53) e) - e).toNat = 1 := by
    rw [targetExponent_eq, totalExponent_eq, hlog]
    omega
  unfold shiftToTargetExponent shiftToExponent
  dsimp only
  rw [htarget]
  rfl

/-- A quotient with its last place at `e` that is nearest to `m`. -/
theorem roundWithAccuracy_same (hden : 0 < den) (hc : Canonical m e) (hx : x ≤ e)
    (ht : Format.binary64.targetExponent (totalExponent (num / den) x) = e)
    (hround : roundDiv .toEven num (den * 2 ^ (e - x).toNat) = m) (s : Sign) :
    roundWithAccuracy .binary64 s (num / den) x (accuracyOfFraction (num % den) den) =
      .finite s m e hc.pos := by
  have hpos : 0 < den * 2 ^ (e - x).toNat := Nat.mul_pos hden (Nat.pow_pos (by omega))
  have hne : m ≠ 0 := hc.pos.ne'
  unfold roundWithAccuracy
  rw [shiftToTargetExponent_fraction hden hx ht]
  dsimp only
  rw [roundedMantissa_extended hpos, hround, shiftToTargetExponent_fits hc.lt hc.least, dif_neg hne]

/-- A quotient that is rounded up to a power of two. -/
theorem roundWithAccuracy_carry (hden : 0 < den) (he : -1074 ≤ e) (hx : x ≤ e)
    (ht : Format.binary64.targetExponent (totalExponent (num / den) x) = e)
    (hround : roundDiv .toEven num (den * 2 ^ (e - x).toNat) = 2 ^ 53) (s : Sign) :
    roundWithAccuracy .binary64 s (num / den) x (accuracyOfFraction (num % den) den) =
      .finite s (2 ^ 52) (e + 1) (by decide) := by
  have hpos : 0 < den * 2 ^ (e - x).toNat := Nat.mul_pos hden (Nat.pow_pos (by omega))
  have hne : 2 ^ 52 ≠ 0 := by decide
  unfold roundWithAccuracy
  rw [shiftToTargetExponent_fraction hden hx ht]
  dsimp only
  rw [roundedMantissa_extended hpos, hround, shiftToTargetExponent_carry he, dif_neg hne]

/-! ## Rounding to the float -/

theorem two_zpow_pos (e : Int) : (0 : ℚ) < 2 ^ e := zpow_pos (by norm_num) e

/-- A power with an exponent of either sign. -/
theorem zpow_eq_div {a : ℚ} (ha : a ≠ 0) (z : Int) : a ^ z = a ^ z.toNat / a ^ (-z).toNat := by
  rw [← zpow_natCast, ← zpow_natCast, ← zpow_sub₀ ha]
  congr 1
  omega

/-- A fraction with its last place moved up. -/
theorem scaled_eq (hx : x ≤ e) :
    (num / den : ℚ) * 2 ^ x = num / ((den * 2 ^ (e - x).toNat : Nat) : ℚ) * 2 ^ e := by
  have hsplit : (2 : ℚ) ^ e = 2 ^ (e - x).toNat * 2 ^ x := by
    rw [← zpow_natCast, ← zpow_add₀ (by norm_num)]
    congr 1
    omega
  have hpos : (0 : ℚ) < 2 ^ (e - x).toNat := by positivity
  push_cast
  rw [hsplit]
  field_simp

theorem le_scaled_iff (hden : 0 < den) (a : Nat) :
    (a : ℚ) * 2 ^ e ≤ 4 * (num / den * 2 ^ e) ↔ a * den ≤ 4 * num := by
  have hpos : (0 : ℚ) < den := by exact_mod_cast hden
  rw [← mul_assoc, mul_le_mul_iff_left₀ (two_zpow_pos e), mul_div_assoc', le_div_iff₀ hpos]
  exact_mod_cast Iff.rfl

theorem scaled_le_iff (hden : 0 < den) (a : Nat) :
    4 * (num / den * 2 ^ e) ≤ (a : ℚ) * 2 ^ e ↔ 4 * num ≤ a * den := by
  have hpos : (0 : ℚ) < den := by exact_mod_cast hden
  rw [← mul_assoc, mul_le_mul_iff_left₀ (two_zpow_pos e), mul_div_assoc', div_le_iff₀ hpos]
  exact_mod_cast Iff.rfl

/-- What it means for a fraction, in whole numbers. -/
theorem roundsTo_iff (hden : 0 < den) :
    RoundsTo m e (num / den * 2 ^ e) ↔
      (4 * m - quartersBelow m e) * den ≤ 4 * num ∧ 4 * num ≤ (4 * m + 2) * den ∧
      (m % 2 = 1 → (4 * m - quartersBelow m e) * den < 4 * num ∧ 4 * num < (4 * m + 2) * den) := by
  constructor
  · rintro ⟨hlow, hhigh, hodd⟩
    refine ⟨(le_scaled_iff hden _).1 hlow, (scaled_le_iff hden _).1 hhigh, fun hm => ?_⟩
    obtain ⟨hlt, hgt⟩ := hodd hm
    rw [← not_le, scaled_le_iff hden, not_le] at hlt
    rw [← not_le, le_scaled_iff hden, not_le] at hgt
    exact ⟨hlt, hgt⟩
  · rintro ⟨hlow, hhigh, hodd⟩
    refine ⟨(le_scaled_iff hden _).2 hlow, (scaled_le_iff hden _).2 hhigh, fun hm => ?_⟩
    obtain ⟨hlt, hgt⟩ := hodd hm
    rw [← not_le, ← scaled_le_iff (e := e) hden, not_le] at hlt
    rw [← not_le, ← le_scaled_iff (e := e) hden, not_le] at hgt
    exact ⟨hlt, hgt⟩

theorem quartersBelow_le (m : Nat) (e : Int) : quartersBelow m e ≤ 2 := by
  unfold quartersBelow
  split <;> omega

/-- The nearest whole number of places, if the fraction rounds to the float. -/
theorem roundDiv_of_roundsTo (hden : 0 < den) (hpos : 0 < m)
    (h : RoundsTo m e (num / den * 2 ^ e)) : roundDiv .toEven num den = m := by
  obtain ⟨hlow, hhigh, hodd⟩ := (roundsTo_iff hden).1 h
  have hquarters : (4 * m - 2) * den ≤ (4 * m - quartersBelow m e) * den :=
    Nat.mul_le_mul_right _ (Nat.sub_le_sub_left (quartersBelow_le m e) _)
  have hbelow : (4 * m - 2) * den = 4 * (m * den) - 2 * den := by
    rw [Nat.sub_mul, Nat.mul_assoc]
  have habove : (4 * m + 2) * den = 4 * (m * den) + 2 * den := by
    rw [Nat.add_mul, Nat.mul_assoc]
  have hle : den ≤ m * den := Nat.le_mul_of_pos_left _ hpos
  refine roundDiv_eq hden (by omega) (by omega) fun hm => ?_
  have hstrict := hodd hm
  omega

/-- The place of the first digit of a fraction. -/
theorem totalExponent_bounds (hden : 0 < den) (hone : num / den ≠ 0) :
    (2 : ℚ) ^ (totalExponent (num / den) x - 1) ≤ num / den * 2 ^ x ∧
      (num / den * 2 ^ x : ℚ) < 2 ^ totalExponent (num / den) x := by
  have hpos : (0 : ℚ) < den := by exact_mod_cast hden
  have hlow : 2 ^ (num / den).log2 * den ≤ num :=
    (Nat.le_div_iff_mul_le hden).1 (Nat.log2_self_le hone)
  have hhigh : num < 2 ^ ((num / den).log2 + 1) * den :=
    (Nat.div_lt_iff_lt_mul hden).1 Nat.lt_log2_self
  have hsplit (k : Nat) : (2 : ℚ) ^ ((k : Int) + x) = 2 ^ k * 2 ^ x := by
    rw [zpow_add₀ (by norm_num), zpow_natCast]
  have hbelow : totalExponent (num / den) x - 1 = ((num / den).log2 : Int) + x := by
    rw [totalExponent_eq]
    omega
  have habove : totalExponent (num / den) x = (((num / den).log2 + 1 : Nat) : Int) + x := by
    rw [totalExponent_eq]
    omega
  rw [hbelow, habove, hsplit, hsplit, mul_le_mul_iff_left₀ (two_zpow_pos x),
    mul_lt_mul_iff_left₀ (two_zpow_pos x), le_div_iff₀ hpos, div_lt_iff₀ hpos]
  exact ⟨by exact_mod_cast hlow, by exact_mod_cast hhigh⟩

/-- What lies between two multiples of the last place. -/
theorem RoundsTo.lt_of_lt (h : RoundsTo m e v) {a : Nat} (hv : v < a * 2 ^ e) :
    4 * m - quartersBelow m e < 4 * a := by
  have hlt : ((4 * m - quartersBelow m e : Nat) : ℚ) * 2 ^ e < ((4 * a : Nat) : ℚ) * 2 ^ e := by
    push_cast
    linarith [h.low]
  exact_mod_cast lt_of_mul_lt_mul_right hlt (two_zpow_pos e).le

theorem RoundsTo.lt (h : RoundsTo m e v) (hc : Canonical m e) : v < 2 ^ (53 + e) := by
  have hm : ((4 * m + 2 : Nat) : ℚ) < 4 * 2 ^ 53 := by
    have := hc.lt
    exact_mod_cast (by omega : 4 * m + 2 < 4 * 2 ^ 53)
  have hmul := mul_lt_mul_of_pos_right hm (two_zpow_pos e)
  have hsplit : (2 : ℚ) ^ (53 + e) = 2 ^ 53 * 2 ^ e := zpow_add₀ (by norm_num) 53 e
  rw [hsplit]
  linarith [h.high]

/-- The last place of what rounds to the float is that of the float, or the one below if the float
is a power of two and the number is smaller. -/
theorem targetExponent_of_roundsTo (hden : 0 < den) (hc : Canonical m e)
    (h : RoundsTo m e (num / den * 2 ^ x))
    (hx : x ≤ Format.binary64.targetExponent (totalExponent (num / den) x)) :
    Format.binary64.targetExponent (totalExponent (num / den) x) = e ∨
      Format.binary64.targetExponent (totalExponent (num / den) x) = e - 1 ∧ m = 2 ^ 52 ∧
        e ≠ -1074 ∧
        (num / den * 2 ^ x : ℚ) < 2 ^ 52 * 2 ^ e := by
  have hleast := hc.least
  have hquarters := quartersBelow_le m e
  have hpower (k : Nat) : (2 : ℚ) ^ ((k : Int) + e) = ((2 ^ k : Nat) : ℚ) * 2 ^ e := by
    rw [zpow_add₀ (by norm_num), zpow_natCast]
    push_cast
    rfl
  rw [targetExponent_eq] at hx ⊢
  by_cases hone : num / den = 0
  · -- Less than one unit of `x`: this must be the smallest float of all.
    rw [hone, totalExponent_eq, Nat.log2_zero] at hx ⊢
    have hv : (num / den * 2 ^ x : ℚ) < (1 : Nat) * 2 ^ e := by
      have hlt : (num : ℚ) / den < 1 := by
        rw [div_lt_one (by exact_mod_cast hden)]
        exact_mod_cast (Nat.div_eq_zero_iff_lt hden).1 hone
      have hle : (2 : ℚ) ^ x ≤ 2 ^ e := zpow_le_zpow_right₀ (by norm_num) (by omega)
      have hmul := mul_lt_mul_of_pos_right hlt (two_zpow_pos x)
      push_cast
      linarith
    have hm := h.lt_of_lt hv
    have hpos := hc.pos
    rcases hc.normal with hnormal | hsmall
    · omega
    · left
      omega
  · obtain ⟨hlow, hhigh⟩ := totalExponent_bounds (x := x) hden hone
    have hbelow : totalExponent (num / den) x - 1 < 53 + e :=
      (zpow_lt_zpow_iff_right₀ (by norm_num : (1 : ℚ) < 2)).1 (hlow.trans_lt (h.lt hc))
    rcases hc.normal with hnormal | hsmall
    · have habove : ¬totalExponent (num / den) x ≤ 51 + e := by
        intro hle
        have hv : (num / den * 2 ^ x : ℚ) < ((2 ^ 51 : Nat) : ℚ) * 2 ^ e := by
          rw [← hpower]
          exact hhigh.trans_le (zpow_le_zpow_right₀ (by norm_num) hle)
        have hm := h.lt_of_lt hv
        omega
      rcases (by omega : totalExponent (num / den) x = 53 + e ∨
        totalExponent (num / den) x = 52 + e) with htotal | htotal
      · left
        omega
      · have hv : (num / den * 2 ^ x : ℚ) < ((2 ^ 52 : Nat) : ℚ) * 2 ^ e := by
          rw [← hpower]
          exact hhigh.trans_eq (by rw [htotal]; rfl)
        have hm := h.lt_of_lt hv
        by_cases he : e = -1074
        · left
          omega
        · right
          exact ⟨by omega, by omega, he, by exact_mod_cast hv⟩
    · left
      omega

/-- **Rounding.**  A quotient that rounds to the float is rounded to it, if it has all the places of
the float or more. -/
theorem roundWithAccuracy_of_roundsTo (hden : 0 < den) (hc : Canonical m e)
    (h : RoundsTo m e (num / den * 2 ^ x))
    (hx : x ≤ Format.binary64.targetExponent (totalExponent (num / den) x)) (s : Sign) :
    roundWithAccuracy .binary64 s (num / den) x (accuracyOfFraction (num % den) den) =
      .finite s m e hc.pos := by
  rcases targetExponent_of_roundsTo hden hc h hx with ht | ⟨ht, rfl, he, hv⟩
  · have hxe : x ≤ e := ht ▸ hx
    refine roundWithAccuracy_same hden hc hxe ht (roundDiv_of_roundsTo (e := e) ?_ hc.pos ?_) s
    · exact Nat.mul_pos hden (Nat.pow_pos (by omega))
    · rw [← scaled_eq hxe]
      exact h
  · -- From the middle below a power of two on, numbers are rounded up to it.
    have hxe : x ≤ e - 1 := ht ▸ hx
    have hleast := hc.least
    have hpos : 0 < den * 2 ^ (e - 1 - x).toNat := Nat.mul_pos hden (Nat.pow_pos (by omega))
    have hdouble : (2 : ℚ) ^ e = 2 * 2 ^ (e - 1) := by
      rw [← zpow_one_add₀ (by norm_num)]
      congr 1
      omega
    have hlow := h.low
    rw [scaled_eq hxe] at hlow hv
    have hquarters : quartersBelow (2 ^ 52) e = 1 := if_pos ⟨rfl, he⟩
    have hge : 2 * (2 ^ 54 - 1) * (den * 2 ^ (e - 1 - x).toNat) ≤ 4 * num := by
      rw [← le_scaled_iff (e := e - 1) hpos]
      rw [hquarters, hdouble] at hlow
      push_cast at hlow ⊢
      linarith
    have hlt : 4 * num ≤ 2 * 2 ^ 54 * (den * 2 ^ (e - 1 - x).toNat) := by
      rw [← scaled_le_iff (e := e - 1) hpos]
      rw [hdouble] at hv
      push_cast at hv ⊢
      linarith
    have hround : roundDiv .toEven num (den * 2 ^ (e - 1 - x).toNat) = 2 ^ 53 := by
      generalize den * 2 ^ (e - 1 - x).toNat = unit at hpos hge hlt
      exact roundDiv_eq hpos (by omega) (by omega) nofun
    have hcarry := roundWithAccuracy_carry hden (by omega) hxe ht hround s
    exact hcarry.trans (finite_congr rfl rfl (by omega))

/-! ## Products and quotients -/

theorem roundWithAccuracy_exact (hc : Canonical m e) (h : RoundsTo m e (num * 2 ^ x))
    (hx : x ≤ Format.binary64.targetExponent (totalExponent num x)) (s : Sign) :
    roundWithAccuracy .binary64 s num x .exact = .finite s m e hc.pos := by
  have hwhole : RoundsTo m e (num / (1 : Nat) * 2 ^ x) := by
    rw [Nat.cast_one, div_one]
    exact h
  have hplaces : x ≤ Format.binary64.targetExponent (totalExponent (num / 1) x) := by
    rw [Nat.div_one]
    exact hx
  have hround := roundWithAccuracy_of_roundsTo Nat.one_pos hc hwhole hplaces s
  rw [Nat.div_one, Nat.mod_one] at hround
  exact hround

variable {m₁ m₂ : Nat} {e₁ e₂ : Int}

/-- A product that rounds to the float, of factors with enough places. -/
theorem mul_of_roundsTo (h₁ : 0 < m₁) (h₂ : 0 < m₂) (hplaces : 2 ^ 53 ≤ m₁ * m₂)
    (hc : Canonical m e) (h : RoundsTo m e ((m₁ * 2 ^ e₁) * (m₂ * 2 ^ e₂))) :
    UnpackedFloat.mul .binary64 (.finite .positive m₁ e₁ h₁) (.finite .positive m₂ e₂ h₂) =
      .finite .positive m e hc.pos := by
  have hlog : 53 ≤ (m₁ * m₂).log2 := (Nat.le_log2 (by omega)).2 hplaces
  refine roundWithAccuracy_exact hc ?_ ?_ (.positive * .positive)
  · rw [zpow_add₀ (by norm_num)]
    push_cast
    convert h using 1
    ring
  · rw [targetExponent_eq, totalExponent_eq]
    omega

/-- The dividend of a division is shifted until its quotient has all the places of a float. -/
theorem divisionPlaces (h₁ : 0 < m₁) (h₂ : 0 < m₂)
    (hx : x = min (e₁ - e₂)
      (Format.binary64.targetExponent (totalExponent m₁ e₁ - totalExponent m₂ e₂))) :
    x ≤ Format.binary64.targetExponent
      (totalExponent ((m₁ * 2 ^ (e₁ - e₂ - x).toNat) / m₂) x) := by
  rw [targetExponent_eq] at hx ⊢
  rw [totalExponent_eq] at hx ⊢
  rw [totalExponent_eq] at hx
  by_cases henough : m₂.log2 + 1 ≤ m₁.log2 + (e₁ - e₂ - x).toNat
  · have hquotient : 2 ^ (m₁.log2 + (e₁ - e₂ - x).toNat - (m₂.log2 + 1)) ≤
        m₁ * 2 ^ (e₁ - e₂ - x).toNat / m₂ := by
      rw [Nat.le_div_iff_mul_le h₂]
      calc 2 ^ (m₁.log2 + (e₁ - e₂ - x).toNat - (m₂.log2 + 1)) * m₂
          ≤ 2 ^ (m₁.log2 + (e₁ - e₂ - x).toNat - (m₂.log2 + 1)) * 2 ^ (m₂.log2 + 1) :=
            Nat.mul_le_mul_left _ Nat.lt_log2_self.le
        _ = 2 ^ m₁.log2 * 2 ^ (e₁ - e₂ - x).toNat := by
            rw [← Nat.pow_add, ← Nat.pow_add, Nat.sub_add_cancel henough]
        _ ≤ m₁ * 2 ^ (e₁ - e₂ - x).toNat := Nat.mul_le_mul_right _ (Nat.log2_self_le h₁.ne')
    have hpos : 0 < 2 ^ (m₁.log2 + (e₁ - e₂ - x).toNat - (m₂.log2 + 1)) := Nat.pow_pos (by omega)
    have hlog := (Nat.le_log2 (by omega)).2 hquotient
    omega
  · omega

/-- A division, as the rounding of a fraction that has all the places of a float. -/
theorem div_eq_round (h₁ : 0 < m₁) (h₂ : 0 < m₂) (e₁ e₂ : Int) :
    ∃ n x, 0 < n ∧
      UnpackedFloat.div .binary64 (.finite .positive m₁ e₁ h₁) (.finite .positive m₂ e₂ h₂) =
        roundWithAccuracy .binary64 .positive (n / m₂) x (accuracyOfFraction (n % m₂) m₂) ∧
      x ≤ Format.binary64.targetExponent (totalExponent (n / m₂) x) ∧
      (n / m₂ * 2 ^ x : ℚ) = (m₁ * 2 ^ e₁) / (m₂ * 2 ^ e₂) := by
  obtain ⟨x, hx⟩ : ∃ x, x = min (e₁ - e₂)
    (Format.binary64.targetExponent (totalExponent m₁ e₁ - totalExponent m₂ e₂)) := ⟨_, rfl⟩
  refine ⟨m₁ * 2 ^ (e₁ - e₂ - x).toNat, x, Nat.mul_pos h₁ (Nat.pow_pos (by omega)), ?_,
    divisionPlaces h₁ h₂ hx, ?_⟩
  · rw [← Nat.shiftLeft_eq, hx]
    rfl
  · have hsplit : (2 : ℚ) ^ e₁ = 2 ^ (e₁ - e₂ - x).toNat * 2 ^ x * 2 ^ e₂ := by
      rw [← zpow_natCast, ← zpow_add₀ (by norm_num), ← zpow_add₀ (by norm_num)]
      congr 1
      omega
    have hpos₂ : (0 : ℚ) < m₂ := by exact_mod_cast h₂
    have hpos := two_zpow_pos e₂
    push_cast
    rw [hsplit]
    field_simp

theorem div_of_roundsTo (h₁ : 0 < m₁) (h₂ : 0 < m₂) (hc : Canonical m e)
    (h : RoundsTo m e ((m₁ * 2 ^ e₁) / (m₂ * 2 ^ e₂))) :
    UnpackedFloat.div .binary64 (.finite .positive m₁ e₁ h₁) (.finite .positive m₂ e₂ h₂) =
      .finite .positive m e hc.pos := by
  obtain ⟨n, x, -, hround, hplaces, hvalue⟩ := div_eq_round h₁ h₂ e₁ e₂
  rw [hround]
  rw [← hvalue] at h
  exact roundWithAccuracy_of_roundsTo h₂ hc h hplaces .positive

end Binary64

end Sparkboard
