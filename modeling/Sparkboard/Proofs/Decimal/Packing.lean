import Mathlib.Tactic.NormNum
import Sparkboard.Decimal.Binary64
/-!
# Floats and their bits

A finite float other than zero is `m * 2 ^ e` in exactly one way with the bounds of `Canonical`.
Packed into bits, such a float is taken out of them again (`unpack_pack`), and what is taken out of
the bits of a float makes up the float (`toFloat_ofFloat`).
-/

namespace Sparkboard

namespace Binary64

open Float.Model Float.Model.UnpackedFloat

/-- Is `m * 2 ^ e` a positive float, with as many places as there can be? -/
structure Canonical (m : Nat) (e : Int) : Prop where
  pos : 0 < m
  lt : m < 2 ^ 53
  least : -1074 ≤ e
  le : e ≤ 971
  normal : 2 ^ 52 ≤ m ∨ e = -1074

variable {m : Nat} {e : Int} {negative : Bool} {x : Float} {bits : UInt64}

/-- The sign of a float, negative or not. -/
def sign (negative : Bool) : Sign := if negative then .negative else .positive

theorem toNat_packComponents (s : Sign) (exponent : BitVec 11) (mantissa : BitVec 52) :
    (packComponents .binary64 s exponent mantissa).toNat =
      (s.toBitVec.toNat * 2 ^ 11 + exponent.toNat) * 2 ^ 52 + mantissa.toNat := by
  unfold packComponents
  rw [BitVec.toNat_append, BitVec.toNat_append, ← Nat.shiftLeft_add_eq_or_of_lt mantissa.isLt,
    ← Nat.shiftLeft_add_eq_or_of_lt exponent.isLt, Nat.shiftLeft_eq, Nat.shiftLeft_eq]

theorem log2_normal (hc : Canonical m e) :
    m.log2 + 1 = Format.binary64.mantissaBits ↔ 2 ^ 52 ≤ m := by
  show m.log2 + 1 = 53 ↔ _
  have hlt := (Nat.log2_lt hc.pos.ne').2 hc.lt
  have hge := Nat.le_log2 (k := 52) hc.pos.ne'
  omega

theorem pack_normal (hc : Canonical m e) (hm : 2 ^ 52 ≤ m) (s : Sign) :
    UnpackedFloat.pack .binary64 (.finite s m e hc.pos) =
      packComponents .binary64 s (BitVec.ofNat 11 (e + 1075).toNat) (BitVec.ofNat 52 m) := by
  have hleast := hc.least
  have hle := hc.le
  have hbias : (e + (Format.binary64.exponentBias : Nat) + (52 : Nat)).toNat =
      (e + 1075).toNat := by
    show (e + (1023 : Nat) + (52 : Nat)).toNat = _
    omega
  have hfits : ¬2 ^ 11 ≤ (e + 1075).toNat + 1 := by omega
  unfold UnpackedFloat.pack
  dsimp only
  rw [hbias, if_neg hfits, if_pos ((log2_normal hc).2 hm)]

theorem pack_subnormal (hc : Canonical m e) (hm : ¬2 ^ 52 ≤ m) (s : Sign) :
    UnpackedFloat.pack .binary64 (.finite s m e hc.pos) =
      packComponents .binary64 s 0#11 (BitVec.ofNat 52 m) := by
  have he : e = -1074 := hc.normal.resolve_left hm
  have hbias : (e + (Format.binary64.exponentBias : Nat) + (52 : Nat)).toNat = 1 := by
    show (e + (1023 : Nat) + (52 : Nat)).toNat = _
    omega
  unfold UnpackedFloat.pack
  dsimp only
  rw [hbias, if_neg (by decide), if_neg (fun h => hm ((log2_normal hc).1 h))]

/-! ## Taking bits apart -/

@[simp]
theorem unpackSign_packComponents (s : Sign) (exponent : BitVec 11) (mantissa : BitVec 52) :
    unpackSign (packComponents .binary64 s exponent mantissa) = s.toBitVec := by
  have hs := s.toBitVec.isLt
  have hexponent := exponent.isLt
  have hmantissa := mantissa.isLt
  apply BitVec.eq_of_toNat_eq
  unfold unpackSign
  rw [BitVec.toNat_cast, BitVec.extractLsb_toNat, toNat_packComponents, Nat.shiftRight_eq_div_pow]
  simp only at *
  omega

theorem ofBitVec_toBitVec (s : Sign) : Sign.ofBitVec s.toBitVec = s := by
  cases s <;> rfl

theorem finite_congr {s s' : Sign} {m' : Nat} {e' : Int} {h : 0 < m} {h' : 0 < m'} (hs : s = s')
    (hm : m = m') (he : e = e') : UnpackedFloat.finite s m e h = .finite s' m' e' h' := by
  subst hs hm he
  rfl

theorem unpack_normal {b : BitVec Format.binary64.numBits} (hmax : unpackExponent b ≠ -1#11)
    (hzero : unpackExponent b ≠ 0#11) (hpos : 0 < (1#1 ++ unpackMantissa b).toNat) :
    UnpackedFloat.unpack .binary64 b =
      .finite (Sign.ofBitVec (unpackSign b)) (1#1 ++ unpackMantissa b).toNat
        ((unpackExponent b).toNat - 1075) hpos := by
  unfold UnpackedFloat.unpack
  dsimp only
  rw [if_neg hmax, if_neg hzero]
  rfl

theorem unpack_subnormal {b : BitVec Format.binary64.numBits} (hzero : unpackExponent b = 0#11)
    (hpos : 0 < (unpackMantissa b).toNat) :
    UnpackedFloat.unpack .binary64 b =
      .finite (Sign.ofBitVec (unpackSign b)) (unpackMantissa b).toNat (-1074) hpos := by
  have hne : unpackMantissa b ≠ 0#52 := by
    intro h
    rw [h] at hpos
    exact absurd hpos (by decide)
  unfold UnpackedFloat.unpack
  dsimp only
  rw [hzero, if_neg (by decide), if_pos rfl, dif_neg hne]
  rfl

/-- **A float that fits is taken out of its bits again.** -/
theorem unpack_pack (hc : Canonical m e) (s : Sign) :
    UnpackedFloat.unpack .binary64 (UnpackedFloat.pack .binary64 (.finite s m e hc.pos)) =
      .finite s m e hc.pos := by
  have hlt := hc.lt
  have hleast := hc.least
  have hle := hc.le
  have hpos := hc.pos
  by_cases hm : 2 ^ 52 ≤ m
  · have hexponent : (BitVec.ofNat 11 (e + 1075).toNat).toNat = (e + 1075).toNat := by
      rw [BitVec.toNat_ofNat]
      omega
    have hmantissa : (1#1 ++ BitVec.ofNat 52 m).toNat = m := by
      rw [BitVec.toNat_append, ← Nat.shiftLeft_add_eq_or_of_lt (BitVec.isLt _), Nat.shiftLeft_eq,
        BitVec.toNat_ofNat]
      show 1 * 2 ^ 52 + m % 2 ^ 52 = m
      omega
    have hne (k : BitVec 11) (hk : k.toNat ≠ (e + 1075).toNat) :
        unpackExponent (packComponents .binary64 s (BitVec.ofNat 11 (e + 1075).toNat)
          (BitVec.ofNat 52 m)) ≠ k := by
      rintro rfl
      rw [unpackExponent_packComponents] at hk
      exact hk hexponent
    have hmax : (-1#11 : BitVec 11).toNat = 2047 := rfl
    have hzero : (0#11 : BitVec 11).toNat = 0 := rfl
    rw [pack_normal hc hm, unpack_normal (hne _ (by omega)) (hne _ (by omega))]
    · refine finite_congr ?_ ?_ ?_
      · rw [unpackSign_packComponents, ofBitVec_toBitVec]
      · rw [unpackMantissa_packComponents, hmantissa]
      · rw [unpackExponent_packComponents, hexponent]
        omega
    · rw [unpackMantissa_packComponents, hmantissa]
      exact hpos
  · have hmantissa : (BitVec.ofNat 52 m).toNat = m := by
      rw [BitVec.toNat_ofNat]
      omega
    rw [pack_subnormal hc hm, unpack_subnormal unpackExponent_packComponents]
    · refine finite_congr ?_ ?_ (hc.normal.resolve_left hm).symm
      · rw [unpackSign_packComponents, ofBitVec_toBitVec]
      · rw [unpackMantissa_packComponents, hmantissa]
    · rw [unpackMantissa_packComponents, hmantissa]
      exact hpos

/-! ## The float of its parts -/

theorem packComponents_parts (bits : UInt64) :
    packComponents .binary64 (sign (bits.toNat / 2 ^ 63 == 1))
      (BitVec.ofNat 11 (bits.toNat / 2 ^ 52 % 2 ^ 11)) (BitVec.ofNat 52 (bits.toNat % 2 ^ 52)) =
        bits.toBitVec := by
  have hbits := bits.toNat_lt
  have hsign : (sign (bits.toNat / 2 ^ 63 == 1)).toBitVec.toNat = bits.toNat / 2 ^ 63 := by
    have hbit : bits.toNat / 2 ^ 63 = 0 ∨ bits.toNat / 2 ^ 63 = 1 := by omega
    rcases hbit with h | h <;> rw [h] <;> rfl
  apply BitVec.eq_of_toNat_eq
  rw [toNat_packComponents, hsign, BitVec.toNat_ofNat, BitVec.toNat_ofNat]
  show _ = bits.toNat
  omega

theorem ofBits_eq_finite (h : ofBits bits = .finite negative m e) (hm : m ≠ 0) :
    ∃ hc : Canonical m e,
      UnpackedFloat.pack .binary64 (.finite (sign negative) m e hc.pos) = bits.toBitVec := by
  have hparts := packComponents_parts bits
  unfold ofBits at h
  dsimp only [Nat.pow_eq, leastNormal, leastExponent] at h
  split at h
  · split at h <;> cases h
  next hmax =>
  split at h
  · next hzero =>
    cases h
    have hc : Canonical (bits.toNat % 2 ^ 52) (-1074) :=
      ⟨by omega, by omega, by omega, by omega, .inr rfl⟩
    refine ⟨hc, ?_⟩
    rw [pack_subnormal hc (by omega), ← hparts, hzero]
  · next hzero =>
    cases h
    have hc : Canonical (2 ^ 52 + bits.toNat % 2 ^ 52)
        (-1074 + (bits.toNat / 2 ^ 52 % 2 ^ 11 - 1 : Nat)) :=
      ⟨by omega, by omega, by omega, by omega, .inl (by omega)⟩
    have hexponent : (-1074 + ((bits.toNat / 2 ^ 52 % 2 ^ 11 - 1 : Nat) : Int) + 1075).toNat =
        bits.toNat / 2 ^ 52 % 2 ^ 11 := by omega
    have hmantissa : BitVec.ofNat 52 (2 ^ 52 + bits.toNat % 2 ^ 52) =
        BitVec.ofNat 52 (bits.toNat % 2 ^ 52) := by
      apply BitVec.eq_of_toNat_eq
      rw [BitVec.toNat_ofNat, BitVec.toNat_ofNat]
      omega
    refine ⟨hc, ?_⟩
    rw [pack_normal hc (by omega), ← hparts, hexponent, hmantissa]

theorem ofBits_eq_zero (h : ofBits bits = .finite negative 0 e) :
    UnpackedFloat.pack .binary64 (.zero (sign negative)) = bits.toBitVec := by
  have hparts := packComponents_parts bits
  unfold ofBits at h
  dsimp only [Nat.pow_eq, leastNormal, leastExponent] at h
  split at h
  · split at h <;> cases h
  split at h
  · next hzero =>
    obtain ⟨rfl, hfraction, -⟩ := Binary64.finite.inj h
    rw [hzero, hfraction] at hparts
    exact hparts
  · obtain ⟨-, hfraction, -⟩ := Binary64.finite.inj h
    omega

/-! ## Floats -/

/-- The float `m * 2 ^ e`, if it is one, with a sign. -/
def toFloat (negative : Bool) (m : Nat) (e : Int) : Float :=
  Float.ofModel (Float.Model.pack
    (if h : 0 < m then .finite (sign negative) m e h else .zero (sign negative)))

theorem toFloat_eq (hc : Canonical m e) (negative : Bool) :
    toFloat negative m e =
      Float.ofModel (Float.Model.pack (.finite (sign negative) m e hc.pos)) := by
  unfold toFloat
  rw [dif_pos hc.pos]

theorem ofModel_toBits {f : UnpackedFloat}
    (h : UnpackedFloat.pack .binary64 f = x.toBits.toBitVec) :
    Float.ofModel (Float.Model.pack f) = x := by
  obtain ⟨⟨bits, hvalid⟩⟩ := x
  obtain rfl : UInt64.ofBitVec (UnpackedFloat.pack .binary64 f) = bits := by
    rw [h]
    rfl
  rfl

/-- **A float is what it stands for.** -/
theorem toFloat_ofFloat (h : ofFloat x = .finite negative m e) : toFloat negative m e = x := by
  by_cases hm : m = 0
  · subst hm
    exact ofModel_toBits (ofBits_eq_zero h)
  · obtain ⟨hc, hpack⟩ := ofBits_eq_finite h hm
    rw [toFloat_eq hc]
    exact ofModel_toBits hpack

theorem canonical_of_ofFloat (h : ofFloat x = .finite negative m e) (hm : m ≠ 0) :
    Canonical m e := (ofBits_eq_finite h hm).1

theorem ofFloat_of_isFinite (h : x.isFinite = true) :
    ∃ negative m e, ofFloat x = .finite negative m e := by
  have hparts := packComponents_parts x.toBits
  have hmax : x.toBits.toNat / 2 ^ 52 % 2 ^ 11 ≠ 2047 := by
    intro hmax
    rw [hmax] at hparts
    have hunpack : (UnpackedFloat.unpack .binary64 x.toBits.toBitVec).isFinite = true := h
    have hexponent : @unpackExponent .binary64 x.toBits.toBitVec = -1#11 := by
      rw [← hparts, unpackExponent_packComponents]
      rfl
    unfold UnpackedFloat.unpack at hunpack
    dsimp only at hunpack
    rw [if_pos hexponent] at hunpack
    split at hunpack <;> cases hunpack
  unfold ofFloat ofBits
  dsimp only [Nat.pow_eq]
  rw [if_neg hmax]
  split
  · exact ⟨_, _, _, rfl⟩
  · exact ⟨_, _, _, rfl⟩

theorem toFloat_neg (hc : Canonical m e) : -toFloat false m e = toFloat true m e := by
  rw [toFloat_eq hc, toFloat_eq hc]
  show Float.ofModel (Float.Model.pack
    (UnpackedFloat.unpack .binary64 (UnpackedFloat.pack .binary64 _)).neg) = _
  rw [unpack_pack hc]
  rfl

end Binary64

end Sparkboard
