import Sparkboard.Proofs.Decimal.Digits
/-!
# Numerals

The spelling of a decimal number, taken apart: a sign, digits, digits behind a point, a power of
ten.  What a numeral spells is the float nearest to the number.
-/

namespace Sparkboard

/-- The power of ten behind a number: `e` or `E`, a sign or none, digits. -/
structure PowerOfTen where
  mark : Char
  sign : Option Bool
  digits : List Char

/-- The spelling of a number.  Without digits behind the point there is no point. -/
structure Numeral where
  negative : Bool
  whole : List Char
  places : List Char
  power : Option PowerOfTen

namespace PowerOfTen

variable (p : PowerOfTen)

/-- The characters of a sign; `true` is a minus. -/
def signChars : Option Bool → List Char
  | none => []
  | some true => ['-']
  | some false => ['+']

def chars : List Char := p.mark :: (signChars p.sign ++ p.digits)

def value : Int :=
  if p.sign = some true then -(Decimal.value p.digits : Int) else Decimal.value p.digits

/-- Is this the power of ten of a number? -/
structure Valid (p : PowerOfTen) : Prop where
  mark : p.mark = 'e' ∨ p.mark = 'E'
  digits : Decimal.IsDigits p.digits

end PowerOfTen

namespace Numeral

variable (n : Numeral)

def fractionChars (places : List Char) : List Char :=
  if places = [] then [] else '.' :: places

def unsignedChars : List Char :=
  n.whole ++ (fractionChars n.places ++ (n.power.map PowerOfTen.chars).getD [])

def chars : List Char := if n.negative then '-' :: n.unsignedChars else n.unsignedChars

def digits : List Char := n.whole ++ n.places

def exponent : Int := (n.power.map PowerOfTen.value).getD 0 - n.places.length

def float : Float := Decimal.toFloat n.negative (Decimal.value n.digits) n.exponent

/-- Is this the spelling of a number?  Digits stand before the point, and a zero stands there only
on its own. -/
structure Valid (n : Numeral) : Prop where
  whole : Decimal.IsDigits n.whole
  no_leading_zero : n.whole.head? = some '0' → n.whole = ['0']
  places : ∀ c ∈ n.places, Decimal.isDigit c = true
  power : ∀ p ∈ n.power, p.Valid

variable {n : Numeral}

/-- A numeral without its sign starts with a digit. -/
theorem Valid.unsignedChars_eq_cons (h : n.Valid) :
    ∃ c rest, n.unsignedChars = c :: rest ∧ Decimal.isDigit c = true := by
  obtain ⟨c, rest, hwhole⟩ := List.exists_cons_of_ne_nil h.whole.ne_nil
  refine ⟨c, rest ++ (fractionChars n.places ++ (n.power.map PowerOfTen.chars).getD []), ?_,
    h.whole.all c (by simp [hwhole])⟩
  simp [unsignedChars, hwhole]

theorem Valid.mem_chars (h : n.Valid) {c : Char} (hc : c ∈ n.chars) :
    Decimal.isDigit c = true ∨ c ∈ ['-', '+', '.', 'e', 'E'] := by
  have hsign (sign : Option Bool) : ∀ c ∈ PowerOfTen.signChars sign, c ∈ ['-', '+'] := by
    rcases sign with - | - | - <;> simp [PowerOfTen.signChars]
  have hunsigned (hc : c ∈ n.unsignedChars) :
      Decimal.isDigit c = true ∨ c ∈ ['-', '+', '.', 'e', 'E'] := by
    rcases List.mem_append.1 hc with hc | hc
    · exact .inl (h.whole.all c hc)
    rcases List.mem_append.1 hc with hc | hc
    · unfold fractionChars at hc
      split at hc
      · cases hc
      · rcases List.mem_cons.1 hc with rfl | hc
        · exact .inr (by decide)
        · exact .inl (h.places c hc)
    · cases hp : n.power with
      | none =>
        rw [hp] at hc
        cases hc
      | some p =>
        rw [hp] at hc
        rcases List.mem_cons.1 hc with rfl | hc
        · rcases (h.power p hp).mark with hmark | hmark <;> rw [hmark] <;> exact .inr (by decide)
        rcases List.mem_append.1 hc with hc | hc
        · have hc := hsign p.sign c hc
          simp only [List.mem_cons, List.not_mem_nil, or_false] at hc ⊢
          exact .inr (hc.imp_right .inl)
        · exact .inl ((h.power p hp).digits.all c hc)
  unfold chars at hc
  split at hc
  · rcases List.mem_cons.1 hc with rfl | hc
    · exact .inr (by decide)
    · exact hunsigned hc
  · exact hunsigned hc

end Numeral

end Sparkboard
