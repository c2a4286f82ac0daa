import Mathlib.Algebra.Order.Field.Rat
import Mathlib.Data.Rat.Cast.Order
import Mathlib.Tactic.Linarith
import Mathlib.Tactic.Ring
import Sparkboard.Chart.Svg
/-!
# Pixels

A coordinate is multiplied with the scale of the picture and rounded to a whole number, half-way
cases away from zero.  The number is kept within 32 bits (`RoundsTo`), and then moved to the nearest
border if it is not in the picture.
-/

namespace Sparkboard

namespace Svg

open Binary64 (ofFloat)

variable {k k' num den : Nat} {q : ℚ} {x : Float} {i : Int}

/-! ## The nearest whole number -/

/-- Is `k` the whole number nearest to `q`?  Half-way between two it is the larger one. -/
structure IsNearestUp (k : Nat) (q : ℚ) : Prop where
  low : (k : ℚ) - 1 / 2 ≤ q
  high : q < k + 1 / 2

theorem IsNearestUp.le (h : IsNearestUp k q) (h' : IsNearestUp k' q) : k ≤ k' := by
  have hlt : (k : ℚ) < k' + 1 := by linarith [h.low, h'.high]
  exact Nat.lt_succ_iff.1 (by exact_mod_cast hlt)

theorem IsNearestUp.eq (h : IsNearestUp k q) (h' : IsNearestUp k' q) : k = k' :=
  le_antisymm (h.le h') (h'.le h)

/-- Twice the quotient and its rounding are less than one apart. -/
theorem roundDiv_up_bounds (hden : 0 < den) :
    2 * (roundDiv .up num den * den) ≤ 2 * num + den ∧
      2 * num < 2 * (roundDiv .up num den * den) + den := by
  have hdivision : num / den * den + num % den = num := by
    rw [mul_comm]
    exact Nat.div_add_mod num den
  have hrest := Nat.mod_lt num hden
  unfold roundDiv
  dsimp only
  split
  · omega
  · have hnext : (num / den + 1) * den = num / den * den + den := by ring
    split <;> omega

theorem isNearestUp_roundDiv (hden : 0 < den) : IsNearestUp (roundDiv .up num den) (num / den) := by
  obtain ⟨hlow, hhigh⟩ := @roundDiv_up_bounds num den hden
  have hpos : (0 : ℚ) < den := by exact_mod_cast hden
  have hlow' : 2 * (roundDiv .up num den * den) ≤ 2 * num + (den : ℚ) := by exact_mod_cast hlow
  have hhigh' : 2 * (num : ℚ) < 2 * (roundDiv .up num den * den) + den := by exact_mod_cast hhigh
  constructor
  · rw [le_div_iff₀ hpos]
    linarith
  · rw [div_lt_iff₀ hpos]
    linarith

theorem isNearestUp_roundScaled (n : Nat) (e : Int) :
    IsNearestUp (roundScaled .up n e) (n * 2 ^ e) := by
  cases e with
  | ofNat e =>
    have hwhole : (n : ℚ) * 2 ^ Int.ofNat e = (roundScaled .up n (.ofNat e) : Nat) := by
      simp [roundScaled]
    rw [hwhole]
    constructor <;> linarith
  | negSucc e =>
    have hquotient := @isNearestUp_roundDiv n _ (Nat.two_pow_pos (e + 1))
    rw [zpow_negSucc, ← div_eq_mul_inv]
    push_cast at hquotient
    exact hquotient

/-! ## Rounding to 32 bits -/

/-- The number within 32 bits that is nearest to a whole number. -/
def saturate (i : Int) : Int := max (-2 ^ 31) (min i (2 ^ 31 - 1))

/-- Is this the whole number nearest to the float, half-way cases away from zero and all within 32
bits? -/
inductive RoundsTo (x : Float) : Int → Prop where
  | finite {negative : Bool} {m k : Nat} {e : Int} (hx : ofFloat x = .finite negative m e)
      (hk : IsNearestUp k (m * 2 ^ e)) : RoundsTo x (saturate (if negative then -k else k))
  | infinite {negative : Bool} (hx : ofFloat x = .infinite negative) :
      RoundsTo x (if negative then -2 ^ 31 else 2 ^ 31 - 1)
  | nan (hx : ofFloat x = .nan) : RoundsTo x 0

theorem saturate_signed (negative : Bool) (n : Nat) :
    saturate (if negative then -n else n) =
      if negative then max (-(n : Int)) (-(Nat.pow 2 31)) else min n (Nat.pow 2 31 - 1) := by
  have hpow : Nat.pow 2 31 = 2147483648 := by decide
  unfold saturate
  rw [hpow]
  cases negative with
  | true =>
    rw [if_pos rfl, if_pos rfl]
    omega
  | false =>
    rw [if_neg Bool.false_ne_true, if_neg Bool.false_ne_true]
    omega

theorem roundsTo_iff : RoundsTo x i ↔ i = nearestInt x := by
  constructor
  · rintro (⟨hx, hk⟩ | hx | hx)
    · have hnearest := hk.eq (isNearestUp_roundScaled _ _)
      unfold nearestInt
      rw [hx, hnearest, saturate_signed]
    · unfold nearestInt
      rw [hx]
      rfl
    · unfold nearestInt
      rw [hx]
  · rintro rfl
    unfold nearestInt
    split
    · next hx => exact .nan hx
    · next negative hx => exact .infinite hx
    · next negative m e hx =>
      have hrounds := RoundsTo.finite hx (isNearestUp_roundScaled m e)
      rw [saturate_signed] at hrounds
      exact hrounds

end Svg

end Sparkboard
