import Sparkboard.Proofs.Decimal.Digits
import Sparkboard.Proofs.Decimal.Rounding
/-!
# Decimals read as floats

A decimal in the interval of a float is read as that float (`toFloat_of_roundsTo`).  Short decimals
are worked out on floats: the digits and the power of ten are floats themselves, so that only the
one product or quotient is rounded.  Longer ones are worked out on whole numbers.
-/

namespace Sparkboard

namespace Binary64

open Float.Model Float.Model.UnpackedFloat

variable {m k : Nat} {e : Int}

/-! ## Whole numbers and powers of ten -/

theorem RoundsTo.self (hpos : 0 < m) (e : Int) : RoundsTo m e (m * 2 ^ e) := by
  have hquarters : 0 < quartersBelow m e := by
    unfold quartersBelow
    split <;> omega
  have hbelow : ((4 * m - quartersBelow m e : Nat) : ℚ) < 4 * m := by
    exact_mod_cast (by omega : 4 * m - quartersBelow m e < 4 * m)
  have hlow := mul_lt_mul_of_pos_right hbelow (two_zpow_pos e)
  have hhigh : 4 * (m * 2 ^ e : ℚ) < ((4 * m + 2 : Nat) : ℚ) * 2 ^ e := by
    push_cast
    linarith [two_zpow_pos e]
  rw [mul_assoc] at hlow
  exact ⟨hlow.le, hhigh.le, fun _ => ⟨hlow, hhigh⟩⟩

/-- A whole number as a float with all its places. -/
theorem canonical_natural (hpos : 0 < m) (hm : m < 2 ^ 53) :
    Canonical (m * 2 ^ (52 - m.log2)) (-(52 - m.log2 : Nat)) := by
  have hlog : m.log2 < 53 := (Nat.log2_lt hpos.ne').2 hm
  have hpower (j : Nat) (hj : m.log2 ≤ j) : 2 ^ m.log2 * 2 ^ (j - m.log2) = 2 ^ j := by
    rw [← Nat.pow_add, Nat.add_sub_cancel' hj]
  refine ⟨Nat.mul_pos hpos (Nat.pow_pos (by omega)), ?_, by omega, by omega, .inl ?_⟩
  · calc m * 2 ^ (52 - m.log2) < 2 ^ (m.log2 + 1) * 2 ^ (52 - m.log2) :=
          Nat.mul_lt_mul_of_pos_right Nat.lt_log2_self (Nat.pow_pos (by omega))
      _ = 2 ^ 53 := by
          rw [← Nat.pow_add]
          congr 1
          omega
  · calc 2 ^ 52 = 2 ^ m.log2 * 2 ^ (52 - m.log2) := (hpower 52 (by omega)).symm
      _ ≤ m * 2 ^ (52 - m.log2) := Nat.mul_le_mul_right _ (Nat.log2_self_le hpos.ne')

theorem natural_value (m : Nat) :
    ((m * 2 ^ (52 - m.log2) : Nat) : ℚ) * 2 ^ (-(52 - m.log2 : Nat) : Int) = m := by
  rw [zpow_neg, zpow_natCast]
  push_cast
  field_simp

theorem round_natural (hpos : 0 < m) (hm : m < 2 ^ 53) :
    UnpackedFloat.round .binary64 .positive m 0 =
      .finite .positive (m * 2 ^ (52 - m.log2)) (-(52 - m.log2 : Nat))
        (canonical_natural hpos hm).pos := by
  have hc := canonical_natural hpos hm
  have hlog : m.log2 < 53 := (Nat.log2_lt hpos.ne').2 hm
  have hshift : (0 - Format.binary64.targetExponent (totalExponent m 0)).toNat = 52 - m.log2 := by
    rw [targetExponent_eq, totalExponent_eq]
    omega
  have hplaces : (m * 2 ^ (52 - m.log2)).log2 = 52 := by
    have hge := (Nat.le_log2 hc.pos.ne').2 (hc.normal.resolve_right (by omega))
    have hlt := (Nat.log2_lt hc.pos.ne').2 hc.lt
    omega
  unfold UnpackedFloat.round decreaseExponent
  dsimp only
  rw [hshift, Nat.shiftLeft_eq, Int.zero_sub]
  refine roundWithAccuracy_exact hc (RoundsTo.self hc.pos _) ?_ .positive
  rw [targetExponent_eq, totalExponent_eq, hplaces]
  omega

theorem unpack_natural (hpos : 0 < m) (hm : m < 2 ^ 53) :
    m.toUInt64.toFloat.toModel.unpack =
      .finite .positive (m * 2 ^ (52 - m.log2)) (-(52 - m.log2 : Nat))
        (canonical_natural hpos hm).pos := by
  have hword : m.toUInt64.toNat = m := UInt64.toNat_ofNat_of_lt (hm.trans (by decide))
  have hpositive : compare (m : Int) 0 = .gt := by
    rw [Int.compare_eq_gt]
    omega
  have hround : UnpackedFloat.ofUInt64 .binary64 m.toUInt64 =
      UnpackedFloat.round .binary64 .positive m 0 := by
    unfold UnpackedFloat.ofUInt64 UnpackedFloat.ofNat UnpackedFloat.ofInt UnpackedFloat.normalize
    rw [hword, hpositive]
    rfl
  show UnpackedFloat.unpack .binary64 (UnpackedFloat.pack .binary64
    (UnpackedFloat.ofUInt64 .binary64 m.toUInt64)) = _
  rw [hround, round_natural hpos hm, unpack_pack (canonical_natural hpos hm)]

/-- Is the float that power of ten, with all its places? -/
def isPowerOfTen (k : Nat) : UnpackedFloat → Bool
  | .finite .positive m e _ => 2 ^ 52 ≤ m && m * 2 ^ e.toNat == 10 ^ k * 2 ^ (-e).toNat
  | _ => false

theorem isPowerOfTen_table : ∀ k (hk : k < Float.exactlyRepresentablePowersOfTen.size),
    isPowerOfTen k Float.exactlyRepresentablePowersOfTen[k].toModel.unpack = true := by
  decide

theorem unpack_powerOfTen (hk : k < Float.exactlyRepresentablePowersOfTen.size) :
    ∃ m e hpos,
      Float.exactlyRepresentablePowersOfTen[k].toModel.unpack = .finite .positive m e hpos ∧
      2 ^ 52 ≤ m ∧ (m * 2 ^ e : ℚ) = 10 ^ k := by
  have htable := isPowerOfTen_table k hk
  generalize Float.exactlyRepresentablePowersOfTen[k].toModel.unpack = f at htable ⊢
  cases f with
  | infinity | notANumber | zero => cases htable
  | finite s m e hpos =>
    cases s with
    | negative => cases htable
    | positive =>
      have hchecks : (decide (2 ^ 52 ≤ m) && m * 2 ^ e.toNat == 10 ^ k * 2 ^ (-e).toNat) = true :=
        htable
      rw [Bool.and_eq_true, decide_eq_true_eq, beq_iff_eq] at hchecks
      obtain ⟨hplaces, hproduct⟩ := hchecks
      have hvalue : ((m * 2 ^ e.toNat : Nat) : ℚ) = ((10 ^ k * 2 ^ (-e).toNat : Nat) : ℚ) := by
        rw [hproduct]
      refine ⟨m, e, hpos, rfl, hplaces, ?_⟩
      push_cast at hvalue
      rw [zpow_eq_div (by norm_num), mul_div_assoc', hvalue]
      field_simp

/-! ## Decimals -/

variable {d : Nat} {g : Int}

/-- A decimal is worked out in one multiplication, of factors with enough places, or in one
division. -/
theorem ofScientific_cases (hd : 0 < d) (hlarge : g ≤ 2048) (hsmall : -2048 ≤ g + d.log2) :
    (∃ m₁ e₁ h₁ m₂ e₂ h₂, UnpackedFloat.ofScientific .binary64 d g =
        UnpackedFloat.mul .binary64 (.finite .positive m₁ e₁ h₁) (.finite .positive m₂ e₂ h₂) ∧
      2 ^ 53 ≤ m₁ * m₂ ∧ ((m₁ * 2 ^ e₁) * (m₂ * 2 ^ e₂) : ℚ) = d * 10 ^ g) ∨
    ∃ m₁ e₁ h₁ m₂ e₂ h₂, UnpackedFloat.ofScientific .binary64 d g =
        UnpackedFloat.div .binary64 (.finite .positive m₁ e₁ h₁) (.finite .positive m₂ e₂ h₂) ∧
      ((m₁ * 2 ^ e₁) / (m₂ * 2 ^ e₂) : ℚ) = d * 10 ^ g := by
  have hlarge' : ¬g > 2 ^ Format.binary64.exponentBits := by
    show ¬g > 2 ^ 11
    omega
  have hsmall' : ¬g < -((2 ^ Format.binary64.exponentBits : Int) + d.log2) := by
    show ¬g < -((2 ^ 11 : Int) + d.log2)
    omega
  unfold UnpackedFloat.ofScientific
  rw [dif_neg hd.ne', if_neg hlarge', if_neg hsmall']
  by_cases hg : 0 ≤ g
  · rw [if_pos hg]
    refine .inl ⟨_, _, _, _, _, _, rfl, ?_, ?_⟩
    · rw [Nat.shiftLeft_eq]
      calc 2 ^ 53 ≤ d * 2 ^ 53 := Nat.le_mul_of_pos_left _ hd
        _ ≤ d * 2 ^ 53 * 10 ^ g.toNat := Nat.le_mul_of_pos_right _ (Nat.pow_pos (by omega))
    · have hpower : (10 : ℚ) ^ g = 10 ^ g.toNat := by
        rw [← zpow_natCast, Int.toNat_of_nonneg hg]
      show ((d <<< 53 : Nat) * 2 ^ (-53 : Int) : ℚ) * ((10 ^ g.toNat : Nat) * 2 ^ (0 : Int)) = _
      rw [Nat.shiftLeft_eq, hpower, zpow_neg, zpow_zero, zpow_ofNat]
      push_cast
      ring
  · rw [if_neg hg]
    refine .inr ⟨_, _, _, _, _, _, rfl, ?_⟩
    rw [zpow_eq_div (a := 10) (by norm_num), zpow_zero, (by omega : g.toNat = 0)]
    push_cast
    ring

/-- A decimal that rounds to the float, worked out in one multiplication or division. -/
theorem ofScientific_unpacked (hd : 0 < d) (hc : Canonical m e) (h : RoundsTo m e (d * 10 ^ g))
    (hlarge : g ≤ 2048) (hsmall : -2048 ≤ g + d.log2) :
    UnpackedFloat.ofScientific .binary64 d g = .finite .positive m e hc.pos := by
  rcases ofScientific_cases hd hlarge hsmall with
    ⟨m₁, e₁, h₁, m₂, e₂, h₂, heq, hplaces, hvalue⟩ | ⟨m₁, e₁, h₁, m₂, e₂, h₂, heq, hvalue⟩
  · rw [heq]
    exact mul_of_roundsTo h₁ h₂ hplaces hc (hvalue ▸ h)
  · rw [heq]
    exact div_of_roundsTo h₁ h₂ hc (hvalue ▸ h)

theorem toFloat_pos (hc : Canonical m e) :
    toFloat false m e = Float.ofModel (Float.Model.pack (.finite .positive m e hc.pos)) :=
  toFloat_eq hc false

/-- A short decimal, worked out on floats. -/
theorem natural_mul_powerOfTen (hd : 0 < d) (hlt : d < 2 ^ 53)
    (hk : k < Float.exactlyRepresentablePowersOfTen.size) (hc : Canonical m e)
    (h : RoundsTo m e (d * 10 ^ k)) :
    d.toUInt64.toFloat * Float.exactlyRepresentablePowersOfTen[k] = toFloat false m e := by
  obtain ⟨p, r, hp, hunpack, hplaces, hvalue⟩ := unpack_powerOfTen hk
  have hn := canonical_natural hd hlt
  have hge := hn.normal.resolve_right (by omega)
  rw [toFloat_pos hc]
  show Float.ofModel (Float.Model.pack (UnpackedFloat.mul .binary64
    d.toUInt64.toFloat.toModel.unpack Float.exactlyRepresentablePowersOfTen[k].toModel.unpack)) = _
  rw [unpack_natural hd hlt, hunpack, mul_of_roundsTo hn.pos hp ?_ hc ?_]
  · calc 2 ^ 53 ≤ 2 ^ 52 * 2 ^ 52 := by norm_num
      _ ≤ d * 2 ^ (52 - d.log2) * p := Nat.mul_le_mul hge hplaces
  · rw [natural_value, hvalue]
    exact h

theorem natural_div_powerOfTen (hd : 0 < d) (hlt : d < 2 ^ 53)
    (hk : k < Float.exactlyRepresentablePowersOfTen.size) (hc : Canonical m e)
    (h : RoundsTo m e (d / 10 ^ k)) :
    d.toUInt64.toFloat / Float.exactlyRepresentablePowersOfTen[k] = toFloat false m e := by
  obtain ⟨p, r, hp, hunpack, -, hvalue⟩ := unpack_powerOfTen hk
  have hn := canonical_natural hd hlt
  rw [toFloat_pos hc]
  show Float.ofModel (Float.Model.pack (UnpackedFloat.div .binary64
    d.toUInt64.toFloat.toModel.unpack Float.exactlyRepresentablePowersOfTen[k].toModel.unpack)) = _
  rw [unpack_natural hd hlt, hunpack, div_of_roundsTo hn.pos hp hc ?_]
  rw [natural_value, hvalue]
  exact h

/-- A decimal that rounds to the float, worked out in either way. -/
theorem ofScientific_of_roundsTo {negative : Bool} (hd : 0 < d) (hc : Canonical m e)
    (hg : g = if negative then -(k : Int) else k) (h : RoundsTo m e (d * 10 ^ g))
    (hlarge : g ≤ 2048) (hsmall : -2048 ≤ g + d.log2) :
    Float.ofScientific d negative k = toFloat false m e := by
  unfold Float.ofScientific
  split
  · next hfast =>
    have hk : k < Float.exactlyRepresentablePowersOfTen.size := by
      show k < 23
      omega
    cases negative with
    | true =>
      refine natural_div_powerOfTen hd hfast.1 hk hc ?_
      rw [hg, if_pos rfl, zpow_neg, zpow_natCast] at h
      exact h
    | false =>
      refine natural_mul_powerOfTen hd hfast.1 hk hc ?_
      rw [hg, if_neg (by decide), zpow_natCast] at h
      exact h
  · have hexponent : (if negative = true then Int.negOfNat k else Int.ofNat k) = g := by
      rw [hg, Int.negOfNat_eq]
      rfl
    dsimp only
    rw [toFloat_pos hc, hexponent]
    unfold Float.Model.ofScientific
    rw [ofScientific_unpacked hd hc h hlarge hsmall]

end Binary64

namespace Decimal

open Binary64 (Canonical RoundsTo quartersBelow_le)

variable {m d : Nat} {e g : Int}

theorem decimal_bounds (hd : 0 < d) (g : Int) :
    (10 : ℚ) ^ (g + (digits d).length - 1) ≤ d * 10 ^ g ∧
      (d * 10 ^ g : ℚ) < 10 ^ (g + (digits d).length) := by
  have hpos := length_digits_pos d
  have hsplit (k : Nat) : (10 : ℚ) ^ ((k : Int) + g) = ((10 ^ k : Nat) : ℚ) * 10 ^ g := by
    rw [zpow_add₀ (by norm_num), zpow_natCast]
    push_cast
    rfl
  have hten : (0 : ℚ) < 10 ^ g := zpow_pos (by norm_num) g
  obtain ⟨hlow, hhigh⟩ := digits_bounds hd
  constructor
  · rw [(by omega : g + (digits d).length - 1 = (((digits d).length - 1 : Nat) : Int) + g), hsplit]
    exact mul_le_mul_of_nonneg_right (by exact_mod_cast hlow) hten.le
  · rw [add_comm, hsplit]
    exact mul_lt_mul_of_pos_right (by exact_mod_cast hhigh) hten

/-- The numbers that round to floats other than zero lie between these powers of ten. -/
theorem bounds_of_roundsTo {v : ℚ} (hc : Canonical m e) (h : RoundsTo m e v) :
    (10 : ℚ) ^ (-324 : Int) < v ∧ v < 10 ^ (309 : Int) := by
  constructor
  · have hpos := hc.pos
    have hquarters := quartersBelow_le m e
    have htwo : (2 : ℚ) ≤ ((4 * m - Binary64.quartersBelow m e : Nat) : ℚ) := by
      exact_mod_cast (by omega : 2 ≤ 4 * m - Binary64.quartersBelow m e)
    have hleast : (2 : ℚ) ^ (-1074 : Int) ≤ 2 ^ e := zpow_le_zpow_right₀ (by norm_num) hc.least
    have hlow := h.low
    have hmul := mul_le_mul htwo hleast (Binary64.two_zpow_pos _).le (by positivity)
    have hpower : (2 : ℚ) * 10 ^ (-324 : Int) < 2 ^ (-1074 : Int) := by
      have hnat : (2 * 2 ^ 1074 : ℚ) < 10 ^ 324 := by
        exact_mod_cast (by decide +kernel : 2 * 2 ^ 1074 < 10 ^ 324)
      rw [zpow_neg, zpow_neg, zpow_ofNat, zpow_ofNat, ← div_eq_mul_inv, div_lt_iff₀ (by positivity),
        inv_mul_eq_div, lt_div_iff₀ (by positivity)]
      exact hnat
    linarith
  · have hle : (2 : ℚ) ^ (53 + e) ≤ 2 ^ (1024 : Int) := by
      have := hc.le
      exact zpow_le_zpow_right₀ (by norm_num) (by omega)
    have hpower : (2 : ℚ) ^ (1024 : Int) < 10 ^ (309 : Int) := by
      rw [zpow_ofNat, zpow_ofNat]
      exact_mod_cast (by decide +kernel : 2 ^ 1024 < 10 ^ 309)
    exact (h.lt hc).trans_le (hle.trans hpower.le)

/-- The first digit of a decimal that rounds to a float is neither very far up nor very far down. -/
theorem size_of_roundsTo (hd : 0 < d) (hc : Canonical m e) (h : RoundsTo m e (d * 10 ^ g)) :
    g + (digits d).length ≤ 309 ∧ -324 < g + (digits d).length := by
  obtain ⟨hlow, hhigh⟩ := decimal_bounds hd g
  obtain ⟨hleast, hmost⟩ := bounds_of_roundsTo hc h
  have hbelow := (zpow_lt_zpow_iff_right₀ (by norm_num : (1 : ℚ) < 10)).1 (hlow.trans_lt hmost)
  have habove := (zpow_lt_zpow_iff_right₀ (by norm_num : (1 : ℚ) < 10)).1 (hleast.trans hhigh)
  omega

theorem length_digits_le_log2 (hd : 0 < d) : (digits d).length - 1 ≤ d.log2 := by
  rw [Nat.le_log2 hd.ne']
  exact (Nat.pow_le_pow_left (by omega) _).trans (digits_bounds hd).1

/-- **A decimal that rounds to the float is read as it.** -/
theorem toFloat_of_roundsTo (hd : 0 < d) (hc : Canonical m e) (h : RoundsTo m e (d * 10 ^ g))
    (negative : Bool) : toFloat negative d g = Binary64.toFloat negative m e := by
  obtain ⟨hlarge, hsmall⟩ := size_of_roundsTo hd hc h
  have hdigits := length_digits_pos d
  have hlog := length_digits_le_log2 hd
  have hsigned : (if negative = true then -Binary64.toFloat false m e
      else Binary64.toFloat false m e) = Binary64.toFloat negative m e := by
    cases negative with
    | true => exact Binary64.toFloat_neg hc
    | false => rfl
  have hexponent : g ≤ 2048 ∧ -2048 ≤ g + d.log2 := by omega
  have hhigh : ¬g + ((digits d).length : Int) > 400 := by omega
  have hlow : ¬g + ((digits d).length : Int) < -400 := by omega
  unfold toFloat
  dsimp only
  rw [if_neg hd.ne', if_neg hhigh, if_neg hlow]
  cases g with
  | ofNat k =>
    have hk : Float.ofScientific d false k = Binary64.toFloat false m e :=
      Binary64.ofScientific_of_roundsTo hd hc rfl h hexponent.1 hexponent.2
    rw [← hsigned, ← hk]
  | negSucc k =>
    have hk : Float.ofScientific d true (k + 1) = Binary64.toFloat false m e :=
      Binary64.ofScientific_of_roundsTo hd hc rfl h hexponent.1 hexponent.2
    rw [← hsigned, ← hk]

end Decimal

end Sparkboard
