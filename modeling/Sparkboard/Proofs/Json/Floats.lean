import Sparkboard.Proofs.Decimal.Correct
import Sparkboard.Proofs.Decimal.Parsed
import Sparkboard.Proofs.Decimal.ReadBack
import Sparkboard.Proofs.Json.Reading
/-!
# Short numerals

A number in a JSON text is read in two steps, and both may round.  If floats hold its digits and its
power of ten, only the second one does, so that a short numeral is read as the float nearest to its
number (`float?_of_short`).
-/

namespace Sparkboard

open Decimal (value value_append toFloat)

/-- Do floats hold the digits of the numeral, and the power of ten they count for? -/
structure Numeral.Short (n : Numeral) : Prop where
  digits : value n.digits < 2 ^ 53
  exponent : n.exponent.natAbs ≤ 22
  power : ∀ p ∈ n.power, value p.digits < 2 ^ 31

namespace Decimal

variable {d : Nat} {g : Int}

/-- A whole number of 64 bits spells the float of that number. -/
theorem toFloat_natural {k : Nat} (hk : k < 2 ^ 64) (negative : Bool) :
    toFloat negative k 0 = if negative then -Float.ofNat k else Float.ofNat k := by
  have hsize : ¬(0 : Int) + (digits k).length > 400 := by
    have hle : (digits k).length ≤ 20 := (length_digits_le (by omega)).2 (by omega)
    omega
  have hlow : ¬(0 : Int) + (digits k).length < -400 := by omega
  have hzero : Float.ofNat 0 = 0.0 := rfl
  unfold toFloat
  dsimp only
  by_cases hk0 : k = 0
  · subst hk0
    simp [hzero]
  · rw [if_neg hk0, if_neg hsize, if_neg hlow]
    rfl

/-- Short decimals are far from the largest float. -/
theorem short_lt (hd : d < 2 ^ 53) (hg : g.natAbs ≤ 22) : (d * 10 ^ g : ℚ) < 2 ^ (1023 : Int) := by
  have hdigits : (d : ℚ) < 2 ^ 53 := by exact_mod_cast hd
  have hpower : (10 : ℚ) ^ g ≤ 10 ^ (22 : Int) := zpow_le_zpow_right₀ (by norm_num) (by omega)
  calc (d * 10 ^ g : ℚ) ≤ d * 10 ^ (22 : Int) := mul_le_mul_of_nonneg_left hpower d.cast_nonneg
    _ < 2 ^ 53 * 10 ^ (22 : Int) := mul_lt_mul_of_pos_right hdigits (by positivity)
    _ < 2 ^ (127 : Int) := by norm_num
    _ ≤ 2 ^ (1023 : Int) := zpow_le_zpow_right₀ (by norm_num) (by norm_num)

theorem le_short (hpos : 0 < d) (hg : g.natAbs ≤ 22) :
    2 ^ Binary64.leastExponent ≤ (d * 10 ^ g : ℚ) := by
  have hdigits : (1 : ℚ) ≤ d := by exact_mod_cast hpos
  calc (2 : ℚ) ^ Binary64.leastExponent ≤ 2 ^ (-88 : Int) :=
        zpow_le_zpow_right₀ (by norm_num) (by decide)
    _ ≤ 10 ^ (-22 : Int) := by norm_num
    _ ≤ 10 ^ g := zpow_le_zpow_right₀ (by norm_num) (by omega)
    _ ≤ d * 10 ^ g := le_mul_of_one_le_left (by positivity) hdigits

theorem isFinite_toFloat (hd : d < 2 ^ 53) (hg : g.natAbs ≤ 22) :
    (toFloat false d g).isFinite = true :=
  (standsFor_decimal (short_lt hd hg)).isFinite

/-- A short decimal is worked out at once. -/
theorem toFloat_short (hpos : 0 < d) (hd : d < 2 ^ 53) (hg : g.natAbs ≤ 22) :
    toFloat false d g = Float.ofScientific d (decide (g < 0)) g.natAbs := by
  have hlength : (digits d).length ≤ 16 := (length_digits_le (by omega)).2 (by omega)
  have hlarge : ¬g + ((digits d).length : Int) > 400 := by omega
  have hsmall : ¬g + ((digits d).length : Int) < -400 := by omega
  unfold toFloat
  dsimp only
  rw [if_neg hpos.ne', if_neg hlarge, if_neg hsmall]
  cases g with
  | ofNat k =>
    have hsign : decide (Int.ofNat k < 0) = false := by simp
    rw [hsign]
    rfl
  | negSucc k =>
    have hsign : decide (Int.negSucc k < 0) = true := by simp
    rw [hsign]
    rfl

end Decimal

namespace Json

variable {n d : Nat} {g : Int} {ds whole places : List Char}

/-! ## Significands -/

/-- All digits of a number are collected that 64 bits hold. -/
theorem absorb_all (h : n * 10 ^ ds.length + value ds < 2 ^ 64) :
    absorb n ds = (n * 10 ^ ds.length + value ds, []) := by
  induction ds generalizing n with
  | nil => simp [absorb, value]
  | cons c ds ih =>
    have hvalue : value (c :: ds) = Decimal.digitValue c * 10 ^ ds.length + value ds := by
      rw [← List.singleton_append, value_append]
      simp [value]
    have hlonger : n * 10 ^ (c :: ds).length + value (c :: ds) =
        (n * 10 + Decimal.digitValue c) * 10 ^ ds.length + value ds := by
      rw [hvalue, List.length_cons]
      ring
    rw [hlonger] at h ⊢
    have hfits : n * 10 + Decimal.digitValue c < Nat.pow 2 64 := by
      have hpos : 0 < 10 ^ ds.length := Nat.pow_pos (by omega)
      exact (Nat.le_mul_of_pos_right _ hpos).trans_lt (by rw [Nat.pow_eq]; omega)
    rw [absorb, if_pos hfits, ih h]

theorem Significand.of_eq (h : value (whole ++ places) < 2 ^ 64) :
    of whole places = ⟨value (whole ++ places), -places.length⟩ := by
  rw [value_append] at h ⊢
  have hpos : 0 < 10 ^ places.length := Nat.pow_pos (by omega)
  have hwhole : absorb 0 whole = (value whole, []) := by
    have hlt : value whole < 2 ^ 64 := (Nat.le_mul_of_pos_right _ hpos).trans_lt (by omega)
    have hall : absorb 0 whole = (0 * 10 ^ whole.length + value whole, []) :=
      absorb_all (by simpa using hlt)
    simpa using hall
  simp [of, hwhole, absorb_all h]

/-! ## Scaling -/

theorem powerOfTen_table : ∀ k (hk : k < Float.exactlyRepresentablePowersOfTen.size),
    powerOfTen k = Float.exactlyRepresentablePowersOfTen[k] := by
  decide

theorem scaled?_zero_table : ∀ k : Fin 23, scaled? (0 : Nat).toUInt64.toFloat k = some 0.0 ∧
    scaled? (0 : Nat).toUInt64.toFloat (-k) = some 0.0 := by
  decide +kernel

theorem isInf_of_isFinite {x : Float} (h : x.isFinite = true) : x.isInf = false := by
  change Float.Model.UnpackedFloat.isFinite x.toModel.unpack = true at h
  show Float.Model.UnpackedFloat.isInf x.toModel.unpack = false
  generalize x.toModel.unpack = f at h ⊢
  cases f with
  | infinity s => cases h
  | notANumber | zero | finite => rfl

/-- A decimal is worked out with the power of ten that the digits are scaled by. -/
theorem ofScientific_eq {k : Nat} (hd : d < 2 ^ 53) (hk : k ≤ 22) (negative : Bool) :
    Float.ofScientific d negative k = if negative then d.toUInt64.toFloat / powerOfTen k
      else d.toUInt64.toFloat * powerOfTen k := by
  rw [powerOfTen_table k (by show k < 23; omega), Float.ofScientific, dif_pos ⟨hd, hk⟩]

/-- A significand that a float holds is scaled to the nearest float. -/
theorem scaled?_eq (hd : d < 2 ^ 53) (hg : g.natAbs ≤ 22) :
    scaled? d.toUInt64.toFloat g = some (toFloat false d g) := by
  rcases Nat.eq_zero_or_pos d with rfl | hpos
  · obtain ⟨k, rfl | rfl⟩ := g.eq_nat_or_neg
    · exact (scaled?_zero_table ⟨k, by omega⟩).1
    · exact (scaled?_zero_table ⟨k, by omega⟩).2
  have hfinite := Decimal.isFinite_toFloat hd hg
  rw [Decimal.toFloat_short hpos hd hg, ofScientific_eq hd hg] at hfinite ⊢
  cases g with
  | ofNat k =>
    have hk : k ≤ 308 := le_trans hg (by decide)
    rw [if_neg (by simp)] at hfinite ⊢
    rw [scaled?, if_pos hk]
    exact if_neg (Bool.eq_false_iff.1 (isInf_of_isFinite hfinite))
  | negSucc k =>
    have hk : k + 1 ≤ 308 := le_trans hg (by decide)
    rw [scaled?, divided, if_pos hk, if_pos (by simp)]
    rfl

theorem Significand.float?_eq (hd : d < 2 ^ 53) (hg : g.natAbs ≤ 22) (negative : Bool) :
    (Significand.mk d g).float? negative = some (toFloat negative d g) := by
  rw [float?, scaled?_eq hd hg, Decimal.toFloat_signed]
  rfl

theorem Significand.raised?_eq {p : PowerOfTen} (h : value p.digits < 2 ^ 31) (s : Significand)
    (negative : Bool) : s.raised? negative (p.sign = some true) (value p.digits) =
      (Significand.mk s.digits (s.exponent + p.value)).float? negative := by
  have hfits : value p.digits < Nat.pow 2 31 := h
  rw [raised?, if_pos hfits]
  simp only [PowerOfTen.value, decide_eq_true_eq]

end Json

/-! ## Numerals -/

open Json (Node)

variable {n : Numeral}

/-- A whole number is read as its float. -/
theorem Json.Node.float?_ofDigits {ds : List Char} (h : value ds < 2 ^ 63) (negative : Bool) :
    (ofDigits negative ds).float? = some (toFloat negative (value ds) 0) := by
  have hfits : ¬Nat.pow 2 64 ≤ value ds := by
    rw [Nat.pow_eq]
    omega
  have hle : ¬Nat.pow 2 63 < value ds := by
    rw [Nat.pow_eq]
    omega
  rw [Decimal.toFloat_natural (by omega)]
  unfold ofDigits
  dsimp only
  rw [if_neg hfits]
  cases negative with
  | false => rfl
  | true =>
    rcases Nat.eq_zero_or_pos (value ds) with hzero | hpos
    · rw [hzero]
      rfl
    · obtain ⟨k, hk⟩ := Nat.exists_eq_succ_of_ne_zero hpos.ne'
      rw [hk] at hle ⊢
      rw [if_pos rfl, if_neg (by simp [hle])]
      rfl

/-- **A short numeral is read as the float nearest to its number.** -/
theorem Numeral.float?_of_short (h : n.Short) : n.float? = some n.float := by
  have hsignificand := Json.Significand.of_eq (h.digits.trans (by decide))
  have hfloat := Json.Significand.float?_eq h.digits h.exponent n.negative
  unfold Numeral.float? Numeral.node Numeral.float
  unfold Numeral.exponent at hfloat ⊢
  cases hpower : n.power with
  | some p =>
    rw [hpower, Option.map_some, Option.getD_some, sub_eq_add_neg, add_comm] at hfloat
    rw [Node.float?_ofFloat?, hsignificand, Option.map_some, Option.getD_some, sub_eq_add_neg,
      add_comm, Json.Significand.raised?_eq (h.power p hpower)]
    exact hfloat
  | none =>
    rw [hpower, Option.map_none, Option.getD_none, zero_sub] at hfloat
    rw [Option.map_none, Option.getD_none, zero_sub]
    dsimp only
    split
    · next hplaces =>
      have hdigits : n.digits = n.whole := by rw [Numeral.digits, hplaces, List.append_nil]
      have hlt := h.digits
      rw [hdigits] at hlt ⊢
      rw [hplaces, Json.Node.float?_ofDigits (by omega)]
      rfl
    · rw [Node.float?_ofFloat?, hsignificand]
      exact hfloat

/-- The number that a decimal spells, without its sign. -/
def Literal.decimal (l : Literal) : ℚ := value l.digits * 10 ^ l.exponent

/-- Is the numeral short, and does it spell the number of the decimal? -/
structure Numeral.Matches (n : Numeral) (l : Literal) : Prop where
  short : n.Short
  negative : n.negative = l.negative
  decimal : n.decimal = l.decimal

/-- A short numeral is read as every decimal of its number is parsed. -/
theorem Numeral.Matches.float?_eq {l : Literal} (h : n.Matches l) : n.float? = some l.float := by
  obtain ⟨hdigits, hexponent, -⟩ := h.short
  rw [float?_of_short h.short, Numeral.float, Literal.float, h.negative,
    Decimal.toFloat_congr h.decimal (Decimal.short_lt hdigits hexponent)]
  exact (Nat.eq_zero_or_pos _).imp_right fun hpos => Decimal.le_short hpos hexponent

/-- A finite float reads back if its numeral is read as it. -/
theorem Json.readsBack_of_float? {x : Float} {negative : Bool} {m : Nat} {e : Int}
    (hx : Binary64.ofFloat x = .finite negative m e)
    (h : (Numeral.ofFinite negative m e).float? = some x) : ReadsBack x := by
  intro _
  have hnode : (Json.float x).tree = (Numeral.ofFinite negative m e).node := by
    rw [tree, floatNode, hx]
  rw [parse_compact, hnode, float_node, h]
  rfl

theorem Json.readsBack_of_short {x : Float} {negative : Bool} {m : Nat} {e : Int}
    (hx : Binary64.ofFloat x = .finite negative m e)
    (h : (Numeral.ofFinite negative m e).Short) : ReadsBack x :=
  readsBack_of_float? hx (by rw [Numeral.float?_of_short h, Numeral.float_ofFloat hx])

end Sparkboard
