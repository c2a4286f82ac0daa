import Mathlib.Data.Int.Log
import Mathlib.Data.Rat.Floor
import Sparkboard.Proofs.Decimal.Rounding
/-!
# The nearest float

`nearest v` is the float next to a number that is not negative, worked out on numbers: so many last
places as are nearest to it, an even number of them half-way between two.  It keeps the order
(`nearest_mono`) and leaves floats alone (`nearest_canonical`).  This is what float arithmetic
rounds to, down to zero (`roundWithAccuracy_nearest`).
-/

namespace Sparkboard

namespace Binary64

open Float.Model Float.Model.UnpackedFloat

variable {m k k' num den : Nat} {e x : Int} {q q' v w : ℚ}

/-! ## The nearest whole number -/

/-- Is `k` the whole number nearest to `q`?  Half-way between two it is the even one. -/
structure IsNearest (k : Nat) (q : ℚ) : Prop where
  low : (k : ℚ) - 1 / 2 ≤ q
  high : q ≤ k + 1 / 2
  odd : k % 2 = 1 → (k : ℚ) - 1 / 2 < q ∧ q < k + 1 / 2

theorem isNearest_natCast (k : Nat) : IsNearest k k where
  low := by linarith
  high := by linarith
  odd _ := ⟨by linarith, by linarith⟩

/-- Nearest whole numbers keep the order. -/
theorem IsNearest.le (h : IsNearest k q) (h' : IsNearest k' q') (hle : q ≤ q') : k ≤ k' := by
  by_contra hlt
  have hnext : (k' : ℚ) + 1 ≤ k := by exact_mod_cast (by omega : k' + 1 ≤ k)
  have hlow := h.low
  have hhigh := h'.high
  -- both are half-way between two neighbours, of which one is odd
  have hk : k = k' + 1 := by
    have : (k : ℚ) ≤ k' + 1 := by linarith
    exact_mod_cast le_antisymm this hnext
  rcases (by omega : k % 2 = 1 ∨ k' % 2 = 1) with hodd | hodd
  · linarith [(h.odd hodd).1]
  · linarith [(h'.odd hodd).2]

theorem IsNearest.eq (h : IsNearest k q) (h' : IsNearest k' q) : k = k' :=
  le_antisymm (h.le h' le_rfl) (h'.le h le_rfl)

/-- The whole number nearest to a quotient. -/
theorem isNearest_roundDiv (hden : 0 < den) : IsNearest (roundDiv .toEven num den) (num / den) := by
  have hpos : (0 : ℚ) < den := by exact_mod_cast hden
  have hdivision : (num : ℚ) = den * (num / den : Nat) + (num % den : Nat) := by
    exact_mod_cast (Nat.div_add_mod num den).symm
  have hquotient : (num : ℚ) / den = (num / den : Nat) + (num % den : Nat) / den := by
    rw [div_eq_iff hpos.ne', add_mul, div_mul_cancel₀ _ hpos.ne', mul_comm]
    exact hdivision
  have hrest : (0 : ℚ) ≤ (num % den : Nat) / den := by positivity
  have hless : ((num % den : Nat) : ℚ) / den < 1 := by
    rw [div_lt_one hpos]
    exact_mod_cast Nat.mod_lt num hden
  have hnext : ((num / den + 1 : Nat) : ℚ) = (num / den : Nat) + 1 := Nat.cast_succ _
  rw [hquotient]
  unfold roundDiv
  dsimp only
  split
  · next hbelow =>
    have hhalf : ((num % den : Nat) : ℚ) / den < 1 / 2 := by
      rw [div_lt_div_iff₀ hpos (by norm_num)]
      exact_mod_cast (by omega : num % den * 2 < 1 * den)
    exact ⟨by linarith, by linarith, fun _ => ⟨by linarith, by linarith⟩⟩
  · split
    · next habove =>
      have hhalf : (1 : ℚ) / 2 < (num % den : Nat) / den := by
        rw [div_lt_div_iff₀ (by norm_num) hpos]
        exact_mod_cast (by omega : 1 * den < num % den * 2)
      exact ⟨by linarith, by linarith, fun _ => ⟨by linarith, by linarith⟩⟩
    · have hhalf : ((num % den : Nat) : ℚ) / den = 1 / 2 := by
        rw [div_eq_div_iff hpos.ne' (by norm_num)]
        exact_mod_cast (by omega : num % den * 2 = 1 * den)
      rw [hhalf]
      split
      · exact ⟨by linarith, by linarith, fun hodd => by omega⟩
      · exact ⟨by linarith, by linarith, fun hodd => by omega⟩

def nearestWhole (q : ℚ) : Nat := roundDiv .toEven q.num.toNat q.den

theorem isNearest_nearestWhole (hq : 0 ≤ q) : IsNearest (nearestWhole q) q := by
  have hvalue : ((q.num.toNat : Nat) : ℚ) / q.den = q := by
    have hnum : ((q.num.toNat : Nat) : Int) = q.num := Int.toNat_of_nonneg (Rat.num_nonneg.2 hq)
    have hcast : ((q.num.toNat : Nat) : ℚ) = q.num := by exact_mod_cast congrArg Int.cast hnum
    rw [hcast, Rat.num_div_den]
  have hnearest : IsNearest (nearestWhole q) ((q.num.toNat : Nat) / q.den : ℚ) :=
    isNearest_roundDiv q.den_pos
  rw [hvalue] at hnearest
  exact hnearest

theorem nearestWhole_div (hden : 0 < den) : nearestWhole (num / den) = roundDiv .toEven num den :=
  (isNearest_nearestWhole (by positivity)).eq (isNearest_roundDiv hden)

/-! ## The nearest float -/

/-- The last place of the floats next to a number. -/
def place (v : ℚ) : Int := max (Int.log 2 v - 52) leastExponent

/-- The float nearest to a number that is not negative, as if there were no largest float. -/
def nearest (v : ℚ) : ℚ := nearestWhole (v / 2 ^ place v) * 2 ^ place v

theorem nearest_zero : nearest 0 = 0 := by
  unfold nearest
  rw [zero_div]
  exact zero_mul _

theorem nearest_nonneg (v : ℚ) : 0 ≤ nearest v :=
  mul_nonneg (Nat.cast_nonneg _) (two_zpow_pos _).le

theorem lt_of_place (v : ℚ) : v / 2 ^ place v < 2 ^ 53 := by
  have hlog : v < 2 ^ (Int.log 2 v + 1) := Int.lt_zpow_succ_log_self (by norm_num) v
  have hle : (2 : ℚ) ^ (Int.log 2 v + 1) ≤ 2 ^ (53 + place v) :=
    zpow_le_zpow_right₀ (by norm_num) (by unfold place; omega)
  rw [div_lt_iff₀ (two_zpow_pos _)]
  calc v < 2 ^ (53 + place v) := hlog.trans_le hle
    _ = 2 ^ 53 * 2 ^ place v := by rw [zpow_add₀ (by norm_num)]; rfl

theorem le_of_place (hv : 0 < v) (hp : place v ≠ leastExponent) : 2 ^ 52 ≤ v / 2 ^ place v := by
  have hlog : (2 : ℚ) ^ Int.log 2 v ≤ v := Int.zpow_log_le_self (by norm_num) hv
  have hplace : Int.log 2 v = 52 + place v := by unfold place at hp ⊢; omega
  rw [le_div_iff₀ (two_zpow_pos _)]
  calc (2 : ℚ) ^ 52 * 2 ^ place v = 2 ^ (52 + place v) := by rw [zpow_add₀ (by norm_num)]; rfl
    _ ≤ v := hplace ▸ hlog

theorem nearestWhole_le (hv : 0 < v) : nearestWhole (v / 2 ^ place v) ≤ 2 ^ 53 := by
  have hnearest := isNearest_nearestWhole (div_nonneg hv.le (two_zpow_pos (place v)).le)
  refine hnearest.le (isNearest_natCast _) ?_
  push_cast
  exact (lt_of_place v).le

theorem le_nearestWhole (hv : 0 < v) (hp : place v ≠ leastExponent) :
    2 ^ 52 ≤ nearestWhole (v / 2 ^ place v) := by
  have hnearest := isNearest_nearestWhole (div_nonneg hv.le (two_zpow_pos (place v)).le)
  refine (isNearest_natCast _).le hnearest ?_
  push_cast
  exact le_of_place hv hp

theorem nearest_mono (hv : 0 ≤ v) (hle : v ≤ w) : nearest v ≤ nearest w := by
  rcases hv.eq_or_lt with rfl | hv
  · rw [nearest_zero]
    exact nearest_nonneg w
  have hw := hv.trans_le hle
  have hlog : Int.log 2 v ≤ Int.log 2 w := Int.log_mono_right hv hle
  have hpos := two_zpow_pos (place w)
  by_cases hplace : place v = place w
  · unfold nearest
    rw [hplace]
    refine mul_le_mul_of_nonneg_right ?_ hpos.le
    have hv' := isNearest_nearestWhole (div_nonneg hv.le hpos.le)
    have hw' := isNearest_nearestWhole (div_nonneg hw.le hpos.le)
    exact_mod_cast hv'.le hw' (div_le_div_of_nonneg_right hle hpos.le)
  · -- a power of two lies between the two numbers
    have hlt : place v + 1 ≤ place w := by unfold place at hplace ⊢; omega
    have hleast : place w ≠ leastExponent := by unfold place at hlt ⊢; omega
    have hbelow : (nearestWhole (v / 2 ^ place v) : ℚ) ≤ 2 ^ 53 := by
      exact_mod_cast nearestWhole_le hv
    have habove : (2 : ℚ) ^ 52 ≤ nearestWhole (w / 2 ^ place w) := by
      exact_mod_cast le_nearestWhole hw hleast
    calc nearest v ≤ 2 ^ 53 * 2 ^ place v := mul_le_mul_of_nonneg_right hbelow (two_zpow_pos _).le
      _ = 2 ^ 52 * 2 ^ (place v + 1) := by rw [zpow_add₀ (by norm_num)]; ring
      _ ≤ 2 ^ 52 * 2 ^ place w :=
        mul_le_mul_of_nonneg_left (zpow_le_zpow_right₀ (by norm_num) hlt) (by norm_num)
      _ ≤ nearest w := mul_le_mul_of_nonneg_right habove hpos.le

theorem Canonical.value_pos (hc : Canonical m e) : (0 : ℚ) < m * 2 ^ e :=
  mul_pos (by exact_mod_cast hc.pos) (two_zpow_pos e)

/-- The last place of a float is its own. -/
theorem place_canonical (hc : Canonical m e) : place (m * 2 ^ e) = e := by
  have hpos := hc.value_pos
  have hm : (m : ℚ) < 2 ^ 53 := by exact_mod_cast hc.lt
  have hhigh : (m * 2 ^ e : ℚ) < (2 : Nat) ^ (53 + e) := by
    rw [Nat.cast_ofNat, zpow_add₀ (by norm_num)]
    exact mul_lt_mul_of_pos_right hm (two_zpow_pos e)
  have hlog := (Int.lt_zpow_iff_log_lt (by norm_num) hpos).1 hhigh
  have hleast := hc.least
  unfold place leastExponent
  rcases hc.normal with hnormal | rfl
  · have hlow : ((2 : Nat) : ℚ) ^ (52 + e) ≤ m * 2 ^ e := by
      rw [Nat.cast_ofNat, zpow_add₀ (by norm_num)]
      exact mul_le_mul_of_nonneg_right (by exact_mod_cast hnormal) (two_zpow_pos e).le
    have hge := (Int.zpow_le_iff_le_log (by norm_num) hpos).1 hlow
    omega
  · omega

/-- Rounding leaves floats alone. -/
theorem nearest_canonical (hc : Canonical m e) : nearest (m * 2 ^ e) = m * 2 ^ e := by
  have hpower := (two_zpow_pos e).ne'
  have hwhole : nearestWhole m = m :=
    (isNearest_nearestWhole (Nat.cast_nonneg m)).eq (isNearest_natCast m)
  unfold nearest
  rw [place_canonical hc, mul_div_cancel_right₀ _ hpower, hwhole]

/-! ## What float arithmetic rounds to -/

/-- Does an unpacked float stand for this number, which is not negative?  Zero has either sign. -/
inductive Means : UnpackedFloat → ℚ → Prop where
  | zero (s : Sign) : Means (.zero s) 0
  | positive {m : Nat} {e : Int} (hc : Canonical m e) :
    Means (.finite .positive m e hc.pos) (m * 2 ^ e)

theorem Means.nonneg {f : UnpackedFloat} (h : Means f v) : 0 ≤ v := by
  cases h with
  | zero => exact le_rfl
  | positive hc => exact hc.value_pos.le

theorem Means.nearest_eq {f : UnpackedFloat} (h : Means f v) : nearest v = v := by
  cases h with
  | zero => exact nearest_zero
  | positive hc => exact nearest_canonical hc

/-- The place that float arithmetic rounds to. -/
theorem targetExponent_eq_place (hden : 0 < den) (hnum : 0 < num)
    (hx : x ≤ Format.binary64.targetExponent (totalExponent (num / den) x)) :
    Format.binary64.targetExponent (totalExponent (num / den) x) = place (num / den * 2 ^ x) := by
  have hpos : (0 : ℚ) < num / den * 2 ^ x :=
    mul_pos (div_pos (by exact_mod_cast hnum) (by exact_mod_cast hden)) (two_zpow_pos x)
  rw [targetExponent_eq] at hx ⊢
  unfold place leastExponent
  by_cases hone : num / den = 0
  · -- less than one unit of `x`, and so less than the smallest float
    rw [hone, totalExponent_eq, Nat.log2_zero] at hx ⊢
    have hless : (num : ℚ) / den < 1 := by
      rw [div_lt_one (by exact_mod_cast hden)]
      exact_mod_cast (Nat.div_eq_zero_iff_lt hden).1 hone
    have hlt : (num / den * 2 ^ x : ℚ) < (2 : Nat) ^ x := by
      rw [Nat.cast_ofNat]
      linarith [mul_lt_mul_of_pos_right hless (two_zpow_pos x)]
    have hlog := (Int.lt_zpow_iff_log_lt (by norm_num) hpos).1 hlt
    omega
  · obtain ⟨hlow, hhigh⟩ := totalExponent_bounds (x := x) hden hone
    have hge := (Int.zpow_le_iff_le_log (b := 2) (by norm_num) hpos).1 hlow
    have hlt := (Int.lt_zpow_iff_log_lt (b := 2) (by norm_num) hpos).1 hhigh
    omega

/-- A quotient with its last place at `e` that is nearest to zero. -/
theorem roundWithAccuracy_zero (hden : 0 < den) (he : -1074 ≤ e) (hx : x ≤ e)
    (ht : Format.binary64.targetExponent (totalExponent (num / den) x) = e)
    (hround : roundDiv .toEven num (den * 2 ^ (e - x).toNat) = 0) (s : Sign) :
    roundWithAccuracy .binary64 s (num / den) x (accuracyOfFraction (num % den) den) = .zero s := by
  have hpos : 0 < den * 2 ^ (e - x).toNat := Nat.mul_pos hden (Nat.pow_pos (by omega))
  unfold roundWithAccuracy
  rw [shiftToTargetExponent_fraction hden hx ht]
  dsimp only
  rw [roundedMantissa_extended hpos, hround, shiftToTargetExponent_fits (by norm_num) he,
    dif_pos rfl]

/-- **Rounding.**  A quotient that has all the places of a float or more is rounded to the nearest
float. -/
theorem roundWithAccuracy_nearest (hden : 0 < den) (hnum : 0 < num)
    (hx : x ≤ Format.binary64.targetExponent (totalExponent (num / den) x))
    (hv : (num / den * 2 ^ x : ℚ) < 2 ^ (1023 : Int)) :
    Means (roundWithAccuracy .binary64 .positive (num / den) x (accuracyOfFraction (num % den) den))
      (nearest (num / den * 2 ^ x)) := by
  have hpos : (0 : ℚ) < num / den * 2 ^ x :=
    mul_pos (div_pos (by exact_mod_cast hnum) (by exact_mod_cast hden)) (two_zpow_pos x)
  have ht := targetExponent_eq_place hden hnum hx
  have hxt : x ≤ place (num / den * 2 ^ x) := ht ▸ hx
  have hleast : -1074 ≤ place (num / den * 2 ^ x) := le_max_right _ _
  have hlargest : place (num / den * 2 ^ x) ≤ 970 := by
    have hlog := (Int.lt_zpow_iff_log_lt (b := 2) (by norm_num) hpos).1 hv
    unfold place leastExponent
    omega
  have hwhole : nearestWhole (num / den * 2 ^ x / 2 ^ place (num / den * 2 ^ x)) =
      roundDiv .toEven num (den * 2 ^ (place (num / den * 2 ^ x) - x).toNat) := by
    rw [← nearestWhole_div (Nat.mul_pos hden (Nat.pow_pos (by omega)))]
    congr 1
    rw [div_eq_iff (two_zpow_pos _).ne']
    exact scaled_eq hxt
  have hmost := nearestWhole_le hpos
  have hnormal := le_nearestWhole hpos
  unfold nearest
  rw [hwhole] at hmost hnormal ⊢
  generalize place (num / den * 2 ^ x) = t at *
  generalize hround : roundDiv .toEven num (den * 2 ^ (t - x).toNat) = k at *
  rcases Nat.eq_zero_or_pos k with rfl | hk
  · rw [roundWithAccuracy_zero hden hleast hxt ht hround, Nat.cast_zero, zero_mul]
    exact .zero _
  · by_cases hfits : k < 2 ^ 53
    · have hc : Canonical k t := ⟨hk, hfits, hleast, by omega, by
        by_cases hplace : t = leastExponent
        · exact .inr hplace
        · exact .inl (hnormal hplace)⟩
      rw [roundWithAccuracy_same hden hc hxt ht hround]
      exact .positive hc
    · obtain rfl : k = 2 ^ 53 := by omega
      have hc : Canonical (2 ^ 52) (t + 1) :=
        ⟨by norm_num, by norm_num, by omega, by omega, .inl le_rfl⟩
      have hvalue : ((2 ^ 53 : Nat) : ℚ) * 2 ^ t = ((2 ^ 52 : Nat) : ℚ) * 2 ^ (t + 1) := by
        rw [zpow_add₀ (by norm_num)]
        push_cast
        ring
      rw [roundWithAccuracy_carry hden hleast hxt ht hround, hvalue]
      exact .positive hc

theorem roundWithAccuracy_exact_nearest (hnum : 0 < num)
    (hx : x ≤ Format.binary64.targetExponent (totalExponent num x))
    (hv : (num * 2 ^ x : ℚ) < 2 ^ (1023 : Int)) :
    Means (roundWithAccuracy .binary64 .positive num x .exact) (nearest (num * 2 ^ x)) := by
  have hplaces : x ≤ Format.binary64.targetExponent (totalExponent (num / 1) x) := by
    rw [Nat.div_one]
    exact hx
  have hwhole : ((num : ℚ) / (1 : Nat) * 2 ^ x) = num * 2 ^ x := by
    rw [Nat.cast_one, div_one]
  have hround := roundWithAccuracy_nearest Nat.one_pos hnum hplaces (hwhole ▸ hv)
  rw [hwhole, Nat.div_one, Nat.mod_one] at hround
  exact hround

end Binary64

end Sparkboard
