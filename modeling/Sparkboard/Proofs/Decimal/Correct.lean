import Sparkboard.Proofs.Decimal.Arithmetic
/-!
# Decimals are rounded correctly

A decimal that is read as a float is read as the float nearest to it (`standsFor_decimal`), so the
float does not depend on the digits that spell the number (`toFloat_congr`).
-/

namespace Sparkboard

namespace Binary64

open Float.Model Float.Model.UnpackedFloat

variable {d k : Nat} {g : Int} {v : ℚ}

/-! ## Factors -/

theorem standsFor_natural (hd : 0 < d) (hlt : d < 2 ^ 53) : StandsFor d.toUInt64.toFloat d := by
  unfold StandsFor
  rw [unpack_natural hd hlt]
  have hmeans := Means.positive (canonical_natural hd hlt)
  rwa [natural_value] at hmeans

theorem plain_table :
    ∀ x ∈ Float.exactlyRepresentablePowersOfTen, x.isFinite = true ∧ ¬x < 0.0 := by
  decide

theorem standsFor_powerOfTen (hk : k < Float.exactlyRepresentablePowersOfTen.size) :
    StandsFor Float.exactlyRepresentablePowersOfTen[k] (10 ^ k) := by
  obtain ⟨hfinite, hsign⟩ := plain_table _ (Array.getElem_mem hk)
  obtain ⟨v, hv⟩ := exists_standsFor hfinite hsign
  obtain ⟨m, e, hpos, hunpack, -, hvalue⟩ := unpack_powerOfTen hk
  have hmeans : Means (.finite .positive m e hpos) v := hunpack ▸ hv
  cases hmeans with
  | positive hc => exact hvalue ▸ hv

/-! ## Decimals -/

/-- A product of factors with enough places is rounded. -/
theorem means_mul_places {m₁ m₂ : Nat} {e₁ e₂ : Int} (h₁ : 0 < m₁) (h₂ : 0 < m₂)
    (hplaces : 2 ^ 53 ≤ m₁ * m₂) (hlt : (m₁ * 2 ^ e₁ * (m₂ * 2 ^ e₂) : ℚ) < 2 ^ (1023 : Int)) :
    Means (UnpackedFloat.mul .binary64 (.finite .positive m₁ e₁ h₁) (.finite .positive m₂ e₂ h₂))
      (nearest (m₁ * 2 ^ e₁ * (m₂ * 2 ^ e₂))) := by
  have hlog : 53 ≤ (m₁ * m₂).log2 := (Nat.le_log2 (by omega)).2 hplaces
  have hvalue : ((m₁ * m₂ : Nat) * 2 ^ (e₁ + e₂) : ℚ) = m₁ * 2 ^ e₁ * (m₂ * 2 ^ e₂) := by
    rw [zpow_add₀ (by norm_num)]
    push_cast
    ring
  rw [← hvalue] at hlt ⊢
  refine roundWithAccuracy_exact_nearest (Nat.mul_pos h₁ h₂) ?_ hlt
  rw [targetExponent_eq, totalExponent_eq]
  omega

/-- A decimal that is worked out on whole numbers. -/
theorem means_ofScientific (hd : 0 < d) (hlt : (d * 10 ^ g : ℚ) < 2 ^ (1023 : Int))
    (hlarge : g ≤ 2048) (hsmall : -2048 ≤ g + d.log2) :
    Means (UnpackedFloat.ofScientific .binary64 d g) (nearest (d * 10 ^ g)) := by
  rcases ofScientific_cases hd hlarge hsmall with
    ⟨m₁, e₁, h₁, m₂, e₂, h₂, heq, hplaces, hvalue⟩ | ⟨m₁, e₁, h₁, m₂, e₂, h₂, heq, hvalue⟩
  · rw [← hvalue] at hlt ⊢
    rw [heq]
    exact means_mul_places h₁ h₂ hplaces hlt
  · obtain ⟨n, x, hn, hround, hdividend, hquotient⟩ := div_eq_round h₁ h₂ e₁ e₂
    rw [← hvalue, ← hquotient] at hlt ⊢
    rw [heq, hround]
    exact roundWithAccuracy_nearest h₂ hn hdividend hlt

/-- A decimal that is worked out in either way. -/
theorem standsFor_ofScientific (negative : Bool) (hd : 0 < d)
    (hg : g = if negative then -(k : Int) else k) (hlt : (d * 10 ^ g : ℚ) < 2 ^ (1023 : Int))
    (hlarge : g ≤ 2048) (hsmall : -2048 ≤ g + d.log2) :
    StandsFor (Float.ofScientific d negative k) (nearest (d * 10 ^ g)) := by
  unfold Float.ofScientific
  split
  · next hfast =>
    have hdigits := standsFor_natural hd hfast.1
    have hpower := standsFor_powerOfTen (k := k) (show k < 23 by omega)
    cases negative with
    | true =>
      have hvalue : (d * 10 ^ g : ℚ) = d / 10 ^ k := by
        rw [hg, if_pos rfl, zpow_neg, zpow_natCast, div_eq_mul_inv]
      rw [hvalue] at hlt ⊢
      exact hdigits.div hpower (by positivity) hlt
    | false =>
      have hvalue : (d * 10 ^ g : ℚ) = d * 10 ^ k := by
        rw [hg, if_neg (by decide), zpow_natCast]
      rw [hvalue] at hlt ⊢
      exact hdigits.mul hpower hlt
  · have hexponent : (if negative = true then Int.negOfNat k else Int.ofNat k) = g := by
      rw [hg, Int.negOfNat_eq]
      rfl
    dsimp only
    rw [hexponent]
    exact standsFor_pack (means_ofScientific hd hlt hlarge hsmall)

/-- Less than half of the smallest float is rounded to zero. -/
theorem nearest_eq_zero (hv : 0 ≤ v) (hlt : v < 2 ^ (-1075 : Int)) : nearest v = 0 := by
  rcases hv.eq_or_lt with rfl | hpos
  · exact nearest_zero
  have hplace : place v = -1074 := by
    have hlog := (Int.lt_zpow_iff_log_lt (b := 2) (by norm_num) hpos).1 (by exact_mod_cast hlt)
    unfold place leastExponent
    omega
  have hhalf : v / 2 ^ (-1074 : Int) < 1 / 2 := by
    have hpower : (1 / 2 : ℚ) * 2 ^ (-1074 : Int) = 2 ^ (-1075 : Int) := by
      rw [show (-1075 : Int) = -1 + -1074 by norm_num, zpow_add₀ (by norm_num), zpow_neg_one]
      norm_num
    rw [div_lt_iff₀ (two_zpow_pos _), hpower]
    exact hlt
  have hpositive : 0 < v / 2 ^ (-1074 : Int) := div_pos hpos (two_zpow_pos _)
  have hnearest {q : ℚ} (hq : 0 < q) (hhalf : q < 1 / 2) : IsNearest 0 q :=
    ⟨by push_cast; linarith, by push_cast; linarith, nofun⟩
  unfold nearest
  rw [hplace, (isNearest_nearestWhole hpositive.le).eq (hnearest hpositive hhalf), Nat.cast_zero,
    zero_mul]

/-- What is not smaller than the smallest float is not rounded to zero. -/
theorem nearest_pos (hv : 2 ^ leastExponent ≤ v) : 0 < nearest v := by
  have hc : Canonical 1 leastExponent := ⟨by norm_num, by norm_num, le_rfl, by decide, .inr rfl⟩
  have hle : ((1 : Nat) * 2 ^ leastExponent : ℚ) ≤ v := by rwa [Nat.cast_one, one_mul]
  have hmono := nearest_mono hc.value_pos.le hle
  rw [nearest_canonical hc] at hmono
  exact hc.value_pos.trans_le hmono

end Binary64

namespace Decimal

open Binary64 (StandsFor nearest nearest_eq_zero nearest_pos leastExponent)

variable {d d' : Nat} {g g' : Int}

/-- **A decimal is read as the float nearest to it**, if it is not too large. -/
theorem standsFor_decimal (hlt : (d * 10 ^ g : ℚ) < 2 ^ (1023 : Int)) :
    StandsFor (toFloat false d g) (nearest (d * 10 ^ g)) := by
  rcases Nat.eq_zero_or_pos d with rfl | hd
  · rw [Nat.cast_zero, zero_mul, Binary64.nearest_zero]
    exact Binary64.standsFor_zero
  have hten : (1 : ℚ) < 10 := by norm_num
  obtain ⟨hlow, hhigh⟩ := decimal_bounds hd g
  have hlarge : g + (digits d).length - 1 < 400 := by
    refine (zpow_lt_zpow_iff_right₀ hten).1 (hlow.trans_lt (hlt.trans ?_))
    rw [zpow_ofNat, zpow_ofNat]
    exact_mod_cast two_pow_lt_ten_pow (by omega : 1023 < 3 * 400)
  have hlog := length_digits_le_log2 hd
  have hlength := length_digits_pos d
  unfold toFloat
  dsimp only
  rw [if_neg hd.ne', if_neg (by omega : ¬g + ((digits d).length : Int) > 400)]
  simp only [Bool.false_eq_true, if_false]
  by_cases hsmall : g + ((digits d).length : Int) < -400
  · have htiny : (d * 10 ^ g : ℚ) < 2 ^ (-1075 : Int) := by
      have hpower : (10 : ℚ) ^ (-400 : Int) < 2 ^ (-1075 : Int) := by
        rw [zpow_neg, zpow_neg, zpow_ofNat, zpow_ofNat]
        refine inv_strictAnti₀ (by positivity) ?_
        exact_mod_cast two_pow_lt_ten_pow (by omega : 1075 < 3 * 400)
      exact hhigh.trans (((zpow_lt_zpow_iff_right₀ hten).2 hsmall).trans hpower)
    rw [if_pos hsmall, nearest_eq_zero (by positivity) htiny]
    exact Binary64.standsFor_zero
  · rw [if_neg hsmall]
    cases g with
    | ofNat k =>
      exact Binary64.standsFor_ofScientific false hd rfl hlt (by omega) (by omega)
    | negSucc k =>
      exact Binary64.standsFor_ofScientific true hd rfl hlt (by omega) (by omega)

theorem toFloat_signed (negative : Bool) (d : Nat) (g : Int) :
    toFloat negative d g = if negative then -toFloat false d g else toFloat false d g := by
  cases negative <;> rfl

/-- The digits that spell a number do not matter. -/
theorem toFloat_congr (h : (d * 10 ^ g : ℚ) = d' * 10 ^ g')
    (hlt : (d * 10 ^ g : ℚ) < 2 ^ (1023 : Int))
    (hlow : d = 0 ∨ 2 ^ leastExponent ≤ (d * 10 ^ g : ℚ)) (negative : Bool) :
    toFloat negative d g = toFloat negative d' g' := by
  have hmagnitude : toFloat false d g = toFloat false d' g' := by
    rcases hlow with rfl | hlow
    · rw [Nat.cast_zero, zero_mul, zero_eq_mul] at h
      have hd' : d' = 0 := by exact_mod_cast h.resolve_right (zpow_ne_zero g' (by norm_num))
      rw [hd']
      rfl
    · have hfloat' := standsFor_decimal (h ▸ hlt)
      rw [← h] at hfloat'
      exact (standsFor_decimal hlt).eq hfloat' (nearest_pos hlow)
  rw [toFloat_signed, toFloat_signed negative d', hmagnitude]

end Decimal

end Sparkboard
