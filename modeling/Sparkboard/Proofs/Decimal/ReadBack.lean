import Sparkboard.Proofs.Decimal.Scientific
import Sparkboard.Proofs.Decimal.Written
/-!
# Written floats read back

The numeral that is written for a finite float spells that float (`float_ofFloat`).  With a point
somewhere and zeros on either side, or with a power of ten, it still is the shortest decimal of the
float.
-/

namespace Sparkboard

namespace Numeral

open Decimal (value value_append value_digits value_replicate_zero)

variable {n : Numeral} {d : Decimal.Scaled} {m : Nat} {e : Int} {negative : Bool} {x : Float}

/-- The number that a numeral spells, without its sign. -/
def decimal (n : Numeral) : ℚ := value n.digits * 10 ^ n.exponent

theorem decimal_eq {v : Nat} {z : Int} (hv : value n.digits = v) (hz : n.exponent = z) :
    n.decimal = v * 10 ^ z := by
  rw [decimal, hv, hz]

/-! ## Layouts keep the number -/

theorem decimal_positional (negative : Bool) (d : Decimal.Scaled) :
    (positional negative d).decimal = d.digits * 10 ^ d.exponent := by
  obtain ⟨ds, exponent⟩ := d
  unfold positional
  cases exponent with
  | ofNat k =>
    have hvalue : value ((Decimal.digits ds ++ List.replicate k '0') ++ ['0']) =
        ds * 10 ^ (k + 1) := by
      rw [value_append, value_append, value_digits, value_replicate_zero, List.length_replicate,
        Nat.pow_succ, ← Nat.mul_assoc]
      rfl
    have hnumeral : decimal ⟨negative, Decimal.digits ds ++ List.replicate k '0', ['0'], none⟩ =
        ((ds * 10 ^ (k + 1) : Nat) : ℚ) * 10 ^ (-1 : Int) := decimal_eq hvalue rfl
    refine hnumeral.trans ?_
    rw [Int.ofNat_eq_natCast, zpow_natCast, zpow_neg_one, Nat.cast_mul, Nat.cast_pow,
      Nat.cast_ofNat, pow_succ, mul_assoc, mul_assoc, mul_inv_cancel₀ (by norm_num), mul_one]
  | negSucc k =>
    dsimp only
    split
    · next hsplit =>
      refine decimal_eq ?_ ?_
      · rw [Numeral.digits, List.take_append_drop, value_digits]
      · rw [Numeral.exponent, List.length_drop]
        simp only [Option.map_none, Option.getD_none]
        omega
    · next hzeros =>
      refine decimal_eq ?_ ?_
      · rw [Numeral.digits, ← List.append_assoc, value_append, value_digits]
        rw [(by rfl : ['0'] ++ List.replicate (k + 1 - (Decimal.digits ds).length) '0' =
          List.replicate (k + 1 - (Decimal.digits ds).length + 1) '0'), value_replicate_zero]
        simp
      · rw [Numeral.exponent, List.length_append, List.length_replicate]
        simp only [Option.map_none, Option.getD_none]
        omega

theorem decimal_scientific (negative : Bool) (d : Decimal.Scaled) :
    (scientific negative d).decimal = d.digits * 10 ^ d.exponent := by
  have hlength := Decimal.length_digits_pos d.digits
  unfold scientific
  dsimp only
  refine decimal_eq ?_ ?_
  · rw [Numeral.digits, List.take_append_drop, value_digits]
  · rw [Numeral.exponent, List.length_drop]
    simp only [Option.map_some, Option.getD_some, PowerOfTen.value, value_digits]
    split
    · next h =>
      simp at h
      omega
    · next h =>
      simp at h
      omega

/-! ## The float of a written numeral -/

theorem float_zero (negative : Bool) :
    (Numeral.mk negative ['0'] ['0'] none).float = Binary64.toFloat negative 0 e := by
  cases negative with
  | true =>
    show -(0.0 : Float) = Float.ofModel (Float.Model.pack (.zero .negative))
    rfl
  | false =>
    show (0.0 : Float) = Float.ofModel (Float.Model.pack (.zero .positive))
    rfl

theorem negative_ofFinite (negative : Bool) (m : Nat) (e : Int) :
    (ofFinite negative m e).negative = negative := by
  have hpositional (d : Decimal.Scaled) : (positional negative d).negative = negative := by
    unfold positional
    cases d.exponent with
    | ofNat k => rfl
    | negSucc k =>
      dsimp only
      split <;> rfl
  unfold ofFinite
  dsimp only
  split
  · rfl
  split
  · exact hpositional _
  · rfl

/-- The numeral that is written for a float other than zero. -/
theorem float_ofFinite_pos (hc : Binary64.Canonical m e) (negative : Bool) :
    (ofFinite negative m e).float = Binary64.toFloat negative m e := by
  have hm : m ≠ 0 := hc.pos.ne'
  have hrounds := Decimal.shortest_roundsTo .toEven hc
  have hdecimal : (ofFinite negative m e).decimal =
      (Decimal.shortest .toEven m e).digits * 10 ^ (Decimal.shortest .toEven m e).exponent := by
    unfold ofFinite
    rw [if_neg hm]
    dsimp only
    split
    · exact decimal_positional negative _
    · exact decimal_scientific negative _
  have hpos : 0 < value (ofFinite negative m e).digits := by
    have hdigits : ((Decimal.shortest .toEven m e).digits : ℚ) ≠ 0 :=
      Nat.cast_ne_zero.2 (Decimal.shortest_digits_ne_zero hm)
    have hne : (ofFinite negative m e).decimal ≠ 0 := by
      rw [hdecimal]
      exact mul_ne_zero hdigits (zpow_ne_zero _ (by norm_num))
    exact Nat.pos_of_ne_zero (Nat.cast_ne_zero.1 (left_ne_zero_of_mul hne))
  rw [Decimal.Scaled.RoundsTo, ← hdecimal] at hrounds
  rw [Numeral.float, negative_ofFinite]
  exact Decimal.toFloat_of_roundsTo hpos hc hrounds negative

/-- **A finite float is read back from the numeral that is written for it.** -/
theorem float_ofFloat (h : Binary64.ofFloat x = .finite negative m e) :
    (ofFinite negative m e).float = x := by
  rw [← Binary64.toFloat_ofFloat h]
  by_cases hm : m = 0
  · subst hm
    exact float_zero negative
  · exact float_ofFinite_pos (Binary64.canonical_of_ofFloat h hm) negative

end Numeral

end Sparkboard
