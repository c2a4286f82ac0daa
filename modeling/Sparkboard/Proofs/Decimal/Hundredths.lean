import Sparkboard.Decimal.Layout
import Sparkboard.Proofs.Decimal.Nearest
import Sparkboard.Proofs.Decimal.Parsed
import Sparkboard.Proofs.Decimal.Written
/-!
# Coordinates in hundredths

A coordinate is written as a plain numeral: digits, and up to two places that do not end in a zero
(`Numeral.Plain`).  Two places are written at first, and trimming them leaves such a numeral, with
all digits in front of the point (`chars_numeral`).  The numeral spells the number of hundredths
nearest to the float, with the float's sign also where this number is zero (`exists_numeral`).
Different numbers of hundredths have different plain numerals, and different plain numerals have
different texts (`Numeral.Plain.eq_of_chars`).
-/

namespace Sparkboard

/-! ## Trimmed texts -/

namespace Decimal

variable {c : Char} {s : List Char}

/-- A trim stops at the last character of another kind and keeps all that stands in front. -/
theorem trimEnd_append (h : trimEnd c s ≠ []) (front : List Char) :
    trimEnd c (front ++ s) = front ++ trimEnd c s := by
  induction front with
  | nil => rfl
  | cons a front ih =>
    have hne : front ++ trimEnd c s ≠ [] := List.append_ne_nil_of_right_ne_nil front h
    rw [List.cons_append, trimEnd, ih, if_neg fun hnil => hne hnil.1, List.cons_append]

theorem trimEnd_append_of_eq_nil (h : trimEnd c s = []) (front : List Char) :
    trimEnd c (front ++ s) = trimEnd c front := by
  induction front with
  | nil => exact h
  | cons a front ih => rw [List.cons_append, trimEnd, trimEnd, ih]

theorem trimEnd_of_not_mem (h : c ∉ s) : trimEnd c s = s := by
  induction s with
  | nil => rfl
  | cons a s ih =>
    obtain ⟨ha, hs⟩ := not_or.1 (mt List.mem_cons.2 h)
    rw [trimEnd, ih hs, if_neg fun hnil => ha hnil.2.symm]

end Decimal

/-! ## Plain numerals -/

namespace Numeral

variable {n n' : Numeral}

/-- The number without its sign. -/
def magnitude (n : Numeral) : ℚ := Decimal.value n.digits * 10 ^ n.exponent

/-- Is the numeral as short as one with two places can be?  It has no exponent, and no zero stands
behind all other places. -/
structure Plain (n : Numeral) : Prop where
  valid : n.Valid
  power : n.power = none
  length_le : n.places.length ≤ 2
  last : n.places.getLast? ≠ some '0'

theorem head_fractionChars {places : List Char} {c : Char}
    (hc : (fractionChars places).head? = some c) : c = '.' := by
  unfold fractionChars at hc
  split at hc
  · cases hc
  · exact (Option.some.inj hc).symm

theorem Plain.unsignedChars_eq (h : n.Plain) :
    n.unsignedChars = n.whole ++ fractionChars n.places := by
  unfold unsignedChars
  rw [h.power]
  simp

/-- The sign and the rest of the text tell two numerals apart. -/
theorem Valid.unsigned_of_chars (h : n.Valid) (h' : n'.Valid) (hchars : n.chars = n'.chars) :
    n.negative = n'.negative ∧ n.unsignedChars = n'.unsignedChars := by
  obtain ⟨c, rest, hc, hdigit⟩ := h.unsignedChars_eq_cons
  obtain ⟨c', rest', hc', hdigit'⟩ := h'.unsignedChars_eq_cons
  have hminus : ∀ d, Decimal.isDigit d = true → d ≠ '-' := by
    rintro d hd rfl
    cases hd
  unfold chars at hchars
  cases hn : n.negative <;> cases hn' : n'.negative <;> rw [hn, hn', hc, hc'] at hchars
  · exact ⟨rfl, by rw [hc, hc']; exact hchars⟩
  · exact absurd (List.cons.inj hchars).1 (hminus c hdigit)
  · exact absurd (List.cons.inj hchars).1.symm (hminus c' hdigit')
  · exact ⟨rfl, by rw [hc, hc']; exact (List.cons.inj hchars).2⟩

/-- **A text is that of one plain numeral.** -/
theorem Plain.eq_of_chars (h : n.Plain) (h' : n'.Plain) (hchars : n.chars = n'.chars) : n = n' := by
  obtain ⟨hsign, hunsigned⟩ := h.valid.unsigned_of_chars h'.valid hchars
  rw [h.unsignedChars_eq, h'.unsignedChars_eq] at hunsigned
  have hpoint : ∀ places c, (fractionChars places).head? = some c → Decimal.isDigit c = false := by
    rintro places c hc
    rw [head_fractionChars hc]
    rfl
  obtain ⟨htake, hdrop⟩ := Decimal.takeWhile_digits h.valid.whole.all (hpoint n.places)
  obtain ⟨htake', hdrop'⟩ := Decimal.takeWhile_digits h'.valid.whole.all (hpoint n'.places)
  have hwhole : n.whole = n'.whole := by rw [← htake, hunsigned, htake']
  have hfraction : fractionChars n.places = fractionChars n'.places := by
    rw [← hdrop, hunsigned, hdrop']
  have hplaces : n.places = n'.places := by
    unfold fractionChars at hfraction
    split at hfraction <;> split at hfraction
    · simp_all
    · cases hfraction
    · cases hfraction
    · exact (List.cons.inj hfraction).2
  obtain ⟨negative, whole, places, power⟩ := n
  obtain ⟨negative', whole', places', power'⟩ := n'
  have hpower : power = power' := h.power.trans h'.power.symm
  subst hsign hwhole hplaces hpower
  rfl

end Numeral

/-! ## Hundredths -/

/-- A number of hundredths with a sign, which zero has as well. -/
structure Hundredths where
  negative : Bool
  count : Nat
  deriving DecidableEq, Repr

namespace Hundredths

open Binary64 (IsNearest ofFloat)

variable {h h' : Hundredths} {x : Float} {n : Numeral} {k : Nat}

/-- Is this the number of hundredths nearest to the float?  Half-way between two it is the even one.
-/
def Nearest (h : Hundredths) (x : Float) : Prop :=
  ∃ m e, ofFloat x = .finite h.negative m e ∧ IsNearest h.count (100 * (m * 2 ^ e))

/-- Does the numeral spell this number? -/
structure SpelledBy (h : Hundredths) (n : Numeral) : Prop where
  negative : n.negative = h.negative
  magnitude : n.magnitude = h.count / 100

theorem SpelledBy.unique (hn : h.SpelledBy n) (hn' : h'.SpelledBy n) : h = h' := by
  obtain ⟨negative, count⟩ := h
  obtain ⟨negative', count'⟩ := h'
  have hsign : negative = negative' := hn.negative.symm.trans hn'.negative
  have hcount : (count : ℚ) / 100 = count' / 100 := hn.magnitude.symm.trans hn'.magnitude
  obtain rfl : count = count' := by
    rw [div_left_inj' (by norm_num)] at hcount
    exact_mod_cast hcount
  rw [hsign]

/-- A whole number of powers of two is rounded to the nearest whole number. -/
theorem isNearest_roundScaled (k : Nat) (e : Int) :
    IsNearest (roundScaled .toEven k e) (k * 2 ^ e) := by
  cases e with
  | ofNat e =>
    have hwhole := Binary64.isNearest_natCast (k * 2 ^ e)
    push_cast at hwhole
    exact hwhole
  | negSucc e =>
    have hquotient := @Binary64.isNearest_roundDiv k _ (Nat.two_pow_pos (e + 1))
    rw [zpow_negSucc, ← div_eq_mul_inv]
    push_cast at hquotient
    exact hquotient

/-- What is written at first for a float whose hundredths are known. -/
theorem Nearest.fixed_eq (hx : h.Nearest x) :
    Decimal.fixed x = Decimal.signed h.negative (Decimal.twoPlaces h.count) := by
  obtain ⟨m, e, hof, hnearest⟩ := hx
  have hcount := isNearest_roundScaled (100 * m) e
  push_cast at hcount
  rw [mul_assoc] at hcount
  unfold Decimal.fixed
  rw [hof]
  dsimp only
  rw [hcount.eq hnearest]

theorem exists_nearest (hfinite : x.isFinite = true) : ∃ h : Hundredths, h.Nearest x := by
  obtain ⟨negative, m, e, hof⟩ := Binary64.ofFloat_of_isFinite hfinite
  have hcount := isNearest_roundScaled (100 * m) e
  push_cast at hcount
  rw [mul_assoc] at hcount
  exact ⟨⟨negative, _⟩, m, e, hof, hcount⟩

/-! ## The numeral of a number of hundredths -/

def digit (d : Nat) : Char := Char.ofNat ('0'.toNat + d)

theorem digit_spec : ∀ d < 10, Decimal.isDigit (digit d) = true ∧ Decimal.digitValue (digit d) = d ∧
    (digit d = '0' ↔ d = 0) := by
  decide

/-- The places behind the point, without zeros at their end. -/
def places (k : Nat) : List Char :=
  if k % 100 = 0 then []
  else if k % 10 = 0 then [digit (k / 10 % 10)]
  else [digit (k / 10 % 10), digit (k % 10)]

def numeral (h : Hundredths) : Numeral :=
  ⟨h.negative, Decimal.digits (h.count / 100), places h.count, none⟩

/-- At most two digits stand behind the point, and the last of them is not a zero. -/
theorem places_spec (k : Nat) :
    (∀ c ∈ places k, Decimal.isDigit c = true) ∧ (places k).length ≤ 2 ∧
      (places k).getLast? ≠ some '0' := by
  obtain ⟨htenth, -, hzero⟩ := digit_spec (k / 10 % 10) (Nat.mod_lt _ (by omega))
  obtain ⟨hlast, -, hzero'⟩ := digit_spec (k % 10) (Nat.mod_lt _ (by omega))
  unfold places
  split
  · simp
  · split
    · refine ⟨by simpa using htenth, by simp, fun hc => ?_⟩
      have hd := hzero.1 (Option.some.inj hc)
      omega
    · refine ⟨by simpa using ⟨htenth, hlast⟩, by simp, fun hc => ?_⟩
      have hd := hzero'.1 (Option.some.inj hc)
      omega

/-- The point and both places, without the zeros at their end. -/
theorem trimEnd_point_places (k : Nat) :
    Decimal.trimEnd '0' ['.', digit (k / 10 % 10), digit (k % 10)] = '.' :: places k := by
  obtain ⟨-, -, htenth⟩ := digit_spec (k / 10 % 10) (Nat.mod_lt _ (by omega))
  obtain ⟨-, -, hlast⟩ := digit_spec (k % 10) (Nat.mod_lt _ (by omega))
  unfold places
  split
  · next hwhole =>
    rw [htenth.2 (by omega), hlast.2 (by omega)]
    rfl
  split
  · next hwhole hunit =>
    have hten : digit (k / 10 % 10) ≠ '0' := fun h => hwhole (by have := htenth.1 h; omega)
    rw [hlast.2 hunit]
    simp [Decimal.trimEnd, hten]
  · next hunit => simp [Decimal.trimEnd, mt hlast.1 hunit]

/-- No point stands among digits, so trimming a point leaves them alone. -/
theorem trimEnd_point {front ds : List Char} (hds : Decimal.IsDigits ds) :
    Decimal.trimEnd '.' (front ++ ds) = front ++ ds := by
  have hkeep : Decimal.trimEnd '.' ds = ds :=
    Decimal.trimEnd_of_not_mem fun hpoint => Bool.noConfusion (hds.all '.' hpoint)
  rw [Decimal.trimEnd_append (by rw [hkeep]; exact hds.ne_nil), hkeep]

/-- **Both trims leave the numeral.**  The first one stops at the point at the latest, and the
second one at the digit in front of it, so no zero of the whole number goes. -/
theorem chars_numeral (h : Hundredths) :
    h.numeral.chars =
      Decimal.trimEnd '.' (Decimal.trimEnd '0' (Decimal.signed h.negative
        (Decimal.twoPlaces h.count))) := by
  obtain ⟨negative, k⟩ := h
  obtain ⟨front, hfront⟩ : ∃ front, ∀ s, Decimal.signed negative s = front ++ s := by
    cases negative with
    | true => exact ⟨['-'], fun _ => rfl⟩
    | false => exact ⟨[], fun _ => rfl⟩
  have hchars : (numeral ⟨negative, k⟩).chars =
      front ++ (Decimal.digits (k / 100) ++ Numeral.fractionChars (places k)) := by
    rw [← hfront]
    simp [numeral, Numeral.chars, Numeral.unsignedChars, Decimal.signed]
  have hzeros : Decimal.trimEnd '0' (Decimal.signed negative (Decimal.twoPlaces k)) =
      front ++ Decimal.digits (k / 100) ++ '.' :: places k := by
    rw [hfront, Decimal.twoPlaces, ← List.append_assoc]
    show Decimal.trimEnd '0'
      (_ ++ ['.', digit (k / 10 % 10), digit (k % 10)]) = _
    rw [Decimal.trimEnd_append (by rw [trimEnd_point_places]; exact List.cons_ne_nil _ _),
      trimEnd_point_places]
  rw [hchars, hzeros, ← List.append_assoc]
  obtain ⟨hdigits, -, -⟩ := places_spec k
  unfold Numeral.fractionChars
  split
  · next hnone =>
    rw [hnone, Decimal.trimEnd_append_of_eq_nil rfl, trimEnd_point (Decimal.isDigits_digits _),
      List.append_nil]
  · next hsome =>
    have hplaces : Decimal.IsDigits (places k) := ⟨hsome, hdigits⟩
    rw [List.append_cons, trimEnd_point hplaces]

theorem plain_numeral (h : Hundredths) : h.numeral.Plain := by
  obtain ⟨hdigits, hlength, hlast⟩ := places_spec h.count
  exact ⟨⟨Decimal.isDigits_digits _, Numeral.digits_of_head, hdigits, nofun⟩, rfl, hlength, hlast⟩

/-- With the places that were left out, the digits are worth all hundredths. -/
theorem value_places (k : Nat) :
    Decimal.value (Decimal.digits (k / 100) ++ places k) * 10 ^ (2 - (places k).length) = k := by
  obtain ⟨-, htenth, -⟩ := digit_spec (k / 10 % 10) (Nat.mod_lt _ (by omega))
  obtain ⟨-, hlast, -⟩ := digit_spec (k % 10) (Nat.mod_lt _ (by omega))
  have hone (c : Char) : Decimal.value [c] = Decimal.digitValue c := by simp [Decimal.value]
  have htwo (c d : Char) :
      Decimal.value [c, d] = Decimal.digitValue c * 10 + Decimal.digitValue d := by
    simp [Decimal.value]
  rw [Decimal.value_append, Decimal.value_digits]
  unfold places
  split
  · simp only [List.length_nil, Decimal.value, List.foldl_nil]
    omega
  · split
    · rw [hone, htenth, List.length_singleton]
      omega
    · rw [htwo, htenth, hlast]
      simp only [List.length_cons, List.length_nil]
      omega

theorem spelledBy_numeral (h : Hundredths) : h.SpelledBy h.numeral := by
  refine ⟨rfl, ?_⟩
  obtain ⟨-, hlength, -⟩ := places_spec h.count
  have hvalue : (Decimal.value h.numeral.digits : ℚ) * 10 ^ (2 - (places h.count).length) =
      h.count := by
    exact_mod_cast value_places h.count
  have hexponent : h.numeral.exponent = (2 - (places h.count).length : Nat) - 2 := by
    have hnone : h.numeral.exponent = 0 - ((places h.count).length : Int) := rfl
    omega
  unfold Numeral.magnitude
  rw [hexponent, zpow_sub₀ (by norm_num), zpow_natCast, mul_div_assoc', hvalue]
  norm_num

/-- **The text of a coordinate.**  It is that of a plain numeral, which spells the float's
hundredths. -/
theorem Nearest.exists_numeral (hx : h.Nearest x) :
    ∃ n : Numeral, (Decimal.coordinate x).toList = n.chars ∧ n.Plain ∧ h.SpelledBy n := by
  refine ⟨h.numeral, ?_, plain_numeral h, spelledBy_numeral h⟩
  rw [Decimal.coordinate, hx.fixed_eq, ← chars_numeral, String.toList_ofList]

end Hundredths

end Sparkboard
