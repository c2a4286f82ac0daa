import Sparkboard.Decimal.Layout
import Sparkboard.Proofs.Decimal.Numeral
import Sparkboard.Proofs.Decimal.Shortest
/-!
# Written numbers

What is written for a whole number or for a finite float is a valid numeral (`valid_ofFinite`).
Only a leading zero could be wrong with it, and no digits but those of zero start with one.  So it
matters that the shortest decimal of a float other than zero is not zero.
-/

namespace Sparkboard

namespace Numeral

open Decimal (isDigits_digits)

variable {d : Decimal.Scaled} {k : Nat}

/-! ## Layouts -/

def ofInt : Int → Numeral
  | .ofNat n => ⟨false, Decimal.digits n, [], none⟩
  | .negSucc n => ⟨true, Decimal.digits (n + 1), [], none⟩

/-- The numeral of `d` with a point and without a power. -/
def positional (negative : Bool) (d : Decimal.Scaled) : Numeral :=
  let ds := Decimal.digits d.digits
  match d.exponent with
  | .ofNat e => ⟨negative, ds ++ List.replicate e '0', ['0'], none⟩
  | .negSucc e =>
    if e + 1 < ds.length then
      ⟨negative, ds.take (ds.length - (e + 1)), ds.drop (ds.length - (e + 1)), none⟩
    else ⟨negative, ['0'], List.replicate (e + 1 - ds.length) '0' ++ ds, none⟩

/-- The numeral of `d` with the point behind the first digit. -/
def scientific (negative : Bool) (d : Decimal.Scaled) : Numeral :=
  let ds := Decimal.digits d.digits
  let power := d.exponent + ds.length - 1
  ⟨negative, ds.take 1, ds.drop 1, some ⟨'e', some (power < 0), Decimal.digits power.natAbs⟩⟩

/-- The numeral of the float `mantissa * 2 ^ exponent`. -/
def ofFinite (negative : Bool) (mantissa : Nat) (exponent : Int) : Numeral :=
  if mantissa = 0 then ⟨negative, ['0'], ['0'], none⟩
  else
    let d := Decimal.shortest .toEven mantissa exponent
    let power := d.exponent + (Decimal.digits d.digits).length - 1
    if -5 ≤ power ∧ power < 16 then positional negative d else scientific negative d

@[simp]
theorem chars_ofInt (n : Int) : (ofInt n).chars = Decimal.integer n := by
  cases n with
  | ofNat n => simp [ofInt, chars, unsignedChars, fractionChars, Decimal.integer]
  | negSucc n => simp [ofInt, chars, unsignedChars, fractionChars, Decimal.integer]

theorem chars_positional (negative : Bool) (d : Decimal.Scaled) :
    (positional negative d).chars = Decimal.signed negative
      (if 0 ≤ d.exponent then Decimal.positional d ++ ['.', '0'] else Decimal.positional d) := by
  unfold positional Decimal.positional chars unsignedChars fractionChars Decimal.signed
  cases d.exponent with
  | ofNat e => simp
  | negSucc e =>
    have hne : Decimal.digits d.digits ≠ [] := (isDigits_digits d.digits).ne_nil
    dsimp only
    by_cases hsplit : e + 1 < (Decimal.digits d.digits).length
    · have hplaces :
          (Decimal.digits d.digits).drop ((Decimal.digits d.digits).length - (e + 1)) ≠ [] := by
        rw [ne_eq, List.drop_eq_nil_iff]
        omega
      simp [hsplit, hplaces]
    · simp [hsplit, hne]

theorem chars_scientific (negative : Bool) (d : Decimal.Scaled) :
    (scientific negative d).chars = Decimal.signed negative (Decimal.scientific d) := by
  unfold scientific Decimal.scientific chars unsignedChars fractionChars Decimal.signed
  dsimp only
  have hsingle : (Decimal.digits d.digits).drop 1 = [] ↔ (Decimal.digits d.digits).length ≤ 1 :=
    List.drop_eq_nil_iff
  by_cases hpower : d.exponent + (Decimal.digits d.digits).length - 1 < 0
  · simp only [hsingle]
    simp [hpower, PowerOfTen.chars, PowerOfTen.signChars]
  · simp only [hsingle]
    simp [hpower, PowerOfTen.chars, PowerOfTen.signChars]

@[simp]
theorem chars_ofFinite (negative : Bool) (mantissa : Nat) (exponent : Int) :
    (ofFinite negative mantissa exponent).chars = Decimal.json negative mantissa exponent := by
  unfold ofFinite Decimal.json
  dsimp only
  split
  · rfl
  split
  · exact chars_positional negative _
  · exact chars_scientific negative _

/-! ## Validity -/

theorem digits_of_head (h : (Decimal.digits k).head? = some '0') : Decimal.digits k = ['0'] := by
  by_cases hk : k = 0
  · rw [hk, Decimal.digits_zero]
  · exact absurd h (Decimal.head_digits hk)

theorem valid_ofInt (n : Int) : (ofInt n).Valid := by
  cases n with
  | ofNat n => exact ⟨isDigits_digits n, digits_of_head, nofun, nofun⟩
  | negSucc n => exact ⟨isDigits_digits (n + 1), digits_of_head, nofun, nofun⟩

theorem isDigit_replicate {c : Char} (hc : c ∈ List.replicate k '0') :
    Decimal.isDigit c = true := by
  rw [(List.mem_replicate.1 hc).2]
  rfl

theorem valid_positional (negative : Bool) (hd : d.digits ≠ 0) : (positional negative d).Valid := by
  have hall := (isDigits_digits d.digits).all
  have hhead := Decimal.head_digits hd
  obtain ⟨c, cs, hcs⟩ := List.exists_cons_of_ne_nil (isDigits_digits d.digits).ne_nil
  unfold positional
  cases d.exponent with
  | ofNat e =>
    refine ⟨⟨by simp [hcs], fun x hx => ?_⟩, fun h => ?_,
      (isDigits_digits 0).all, nofun⟩
    · exact (List.mem_append.1 hx).elim (hall x) isDigit_replicate
    · rw [hcs] at h hhead
      exact absurd h hhead
  | negSucc e =>
    dsimp only
    split
    · next hsplit =>
      obtain ⟨k, hk⟩ := Nat.exists_eq_add_one_of_ne_zero
        (show (Decimal.digits d.digits).length - (e + 1) ≠ 0 by omega)
      refine ⟨⟨?_, fun x hx => hall x (List.mem_of_mem_take hx)⟩, fun h => ?_,
        fun x hx => hall x (List.mem_of_mem_drop hx), nofun⟩
      · rw [hk, hcs]
        simp
      · rw [hk, hcs] at h
        rw [hcs] at hhead
        exact absurd h hhead
    · refine ⟨isDigits_digits 0, fun _ => rfl, fun x hx => ?_, nofun⟩
      exact (List.mem_append.1 hx).elim isDigit_replicate (hall x)

theorem valid_scientific (negative : Bool) (hd : d.digits ≠ 0) : (scientific negative d).Valid := by
  have hall := (isDigits_digits d.digits).all
  have hhead := Decimal.head_digits hd
  obtain ⟨c, cs, hcs⟩ := List.exists_cons_of_ne_nil (isDigits_digits d.digits).ne_nil
  refine ⟨⟨by simp [scientific, hcs], fun x hx => hall x (List.mem_of_mem_take hx)⟩, fun h => ?_,
    fun x hx => hall x (List.mem_of_mem_drop hx), fun p hp => ?_⟩
  · rw [hcs] at hhead
    exact absurd (by simpa [scientific, hcs] using h) hhead
  · cases hp
    exact ⟨.inl rfl, isDigits_digits _⟩

theorem valid_ofFinite (negative : Bool) (mantissa : Nat) (exponent : Int) :
    (ofFinite negative mantissa exponent).Valid := by
  unfold ofFinite
  split
  · exact ⟨isDigits_digits 0, fun _ => rfl, (isDigits_digits 0).all, nofun⟩
  next hm =>
  have hd : (Decimal.shortest .toEven mantissa exponent).digits ≠ 0 :=
    Decimal.shortest_digits_ne_zero hm
  dsimp only
  split
  · exact valid_positional negative hd
  · exact valid_scientific negative hd

end Numeral

end Sparkboard
