import Sparkboard.Json.Reader
import Sparkboard.Proofs.Decimal.Numeral
import Sparkboard.Proofs.Json.Glyphs
/-!
# Numerals in JSON text

A numeral in front of a text that does not go on with it is read as a whole (`takeValue_numeral`).
A reader of floats takes a float out of its node (`Numeral.float?`), or refuses a number that is too
large (`float_node`).
-/

namespace Sparkboard

open Decimal (isDigit)
open Json (Node)

/-- The node of a numeral.  Without point and power it is a whole number, if that fits 64 bits. -/
def Numeral.node (n : Numeral) : Node :=
  let significand := Json.Significand.of n.whole n.places
  match n.power with
  | some p =>
    Node.ofFloat? (significand.raised? n.negative (p.sign = some true) (Decimal.value p.digits))
  | none =>
    if n.places = [] then Node.ofDigits n.negative n.whole
    else Node.ofFloat? (significand.float? n.negative)

namespace Json

/-- Can the text not go on with a number that stands in front of it? -/
def Halts (s : List Glyph) : Prop :=
  ∀ c, s.head? = some (.char c) → isDigit c = false ∧ c ≠ '.' ∧ c ≠ 'e' ∧ c ≠ 'E'

theorem Halts.noDigit {s : List Glyph} (h : Halts s) : Node.NoDigit s := fun c hc => (h c hc).1

namespace Node

variable {n : Numeral} {p : PowerOfTen} {s : List Glyph} {negative : Bool} {ds places : List Char}
  {places? : Option (List Char)}

theorem noDigit_cons {c : Char} (h : isDigit c = false) (s : List Glyph) :
    NoDigit (.char c :: s) := by
  intro d hd
  cases hd
  exact h

theorem ofExponent_power (hp : p.Valid) (hs : Halts s) :
    ofExponent negative ds places? (glyphs p.chars ++ s) =
      (ofFloat? ((Significand.of ds (places?.getD [])).raised? negative (p.sign = some true)
        (Decimal.value p.digits)), s) := by
  obtain ⟨mark, sign, digits⟩ := p
  have hmark : (mark = 'e' || mark = 'E') = true := by simpa using hp.mark
  have htake : takeDigits (glyphs digits ++ s) = (digits, s) :=
    takeDigits_append hp.digits.all hs.noDigit
  obtain ⟨c, rest, rfl⟩ : ∃ c rest, digits = c :: rest :=
    List.exists_cons_of_ne_nil hp.digits.ne_nil
  have hc : isDigit c = true := hp.digits.all c (List.mem_cons_self ..)
  rw [glyphs_cons, List.cons_append] at htake
  cases sign with
  | none =>
    have hplus : c ≠ '+' := by rintro rfl; cases hc
    have hminus : c ≠ '-' := by rintro rfl; cases hc
    simp [ofExponent, PowerOfTen.chars, PowerOfTen.signChars, hmark, htake, hplus, hminus]
  | some minus =>
    cases minus <;> simp [ofExponent, PowerOfTen.chars, PowerOfTen.signChars, hmark, htake]

theorem ofExponent_none (hs : Halts s) :
    ofExponent negative ds places? s =
      (match places? with
        | none => ofDigits negative ds
        | some places => ofFloat? ((Significand.of ds places).float? negative), s) := by
  cases s with
  | nil => cases places? <;> rfl
  | cons g s =>
    cases g with
    | stray => cases places? <;> rfl
    | char c =>
      obtain ⟨-, -, he, hE⟩ := hs c rfl
      cases places? <;> simp [ofExponent, he, hE]

theorem ofUnsigned_whole (hw : Decimal.IsDigits ds) (hz : ds.head? = some '0' → ds = ['0'])
    (hs : NoDigit s) (hpoint : s.head? ≠ some (.char '.')) :
    ofUnsigned negative (glyphs ds ++ s) = ofExponent negative ds none s := by
  unfold ofUnsigned
  rw [takeDigits_append hw.all hs]
  split
  · next heq =>
    cases heq
    exact absurd rfl hw.ne_nil
  · next heq =>
    cases heq
    exact absurd (hz rfl) (by simp)
  · next heq =>
    cases heq
    exact absurd rfl hpoint
  · next heq =>
    cases heq
    rfl

theorem ofUnsigned_fraction (hw : Decimal.IsDigits ds) (hz : ds.head? = some '0' → ds = ['0'])
    (hp : Decimal.IsDigits places) (hs : NoDigit s) :
    ofUnsigned negative (glyphs ds ++ .char '.' :: (glyphs places ++ s)) =
      ofExponent negative ds (some places) s := by
  unfold ofUnsigned
  rw [takeDigits_append hw.all (noDigit_cons (by decide) _)]
  split
  · next heq =>
    cases heq
    exact absurd rfl hw.ne_nil
  · next heq =>
    cases heq
    exact absurd (hz rfl) (by simp)
  · next heq =>
    cases heq
    rw [takeDigits_append hp.all hs]
    split
    · next heq =>
      cases heq
      exact absurd rfl hp.ne_nil
    · next heq =>
      cases heq
      rfl
  · next hno heq =>
    cases heq
    exact (hno _ rfl).elim

/-- What follows the whole digits of a numeral is no digit. -/
theorem noDigit_power (hn : n.Valid) (hs : Halts s) :
    NoDigit (glyphs ((n.power.map PowerOfTen.chars).getD []) ++ s) := by
  cases hp : n.power with
  | none => exact hs.noDigit
  | some p =>
    have hmark : isDigit p.mark = false := by
      rcases (hn.power p hp).mark with h | h <;> rw [h] <;> decide
    exact noDigit_cons hmark _

theorem ofUnsigned_numeral (hn : n.Valid) (hs : Halts s) :
    ofUnsigned n.negative (glyphs n.unsignedChars ++ s) = (n.node, s) := by
  obtain ⟨negative, whole, places, power⟩ := n
  have htail := noDigit_power hn hs
  unfold Numeral.unsignedChars Numeral.node Numeral.fractionChars
  by_cases hplaces : places = []
  · subst hplaces
    cases power with
    | none =>
      have hpoint : s.head? ≠ some (.char '.') := fun h => (hs '.' h).2.1 rfl
      simp [ofUnsigned_whole hn.whole hn.no_leading_zero hs.noDigit hpoint, ofExponent_none hs]
    | some p =>
      have hp := hn.power p rfl
      have hpoint : (glyphs p.chars ++ s).head? ≠ some (.char '.') := by
        rcases hp.mark with h | h <;> simp [PowerOfTen.chars, h]
      have hwhole : ofUnsigned negative (glyphs whole ++ (glyphs p.chars ++ s)) =
          ofExponent negative whole none (glyphs p.chars ++ s) :=
        ofUnsigned_whole hn.whole hn.no_leading_zero htail hpoint
      simp [hwhole, ofExponent_power hp hs]
  · have hdigits : Decimal.IsDigits places := ⟨hplaces, hn.places⟩
    have hfraction (power : List Glyph) (hpower : NoDigit power) :
        ofUnsigned negative (glyphs whole ++ .char '.' :: (glyphs places ++ power)) =
          ofExponent negative whole (some places) power :=
      ofUnsigned_fraction hn.whole hn.no_leading_zero hdigits hpower
    rw [if_neg hplaces]
    simp only [glyphs_append, glyphs_cons, List.append_assoc, List.cons_append]
    rw [hfraction _ htail]
    cases power with
    | none => simp [ofExponent_none hs, hplaces]
    | some p =>
      have hp := hn.power p rfl
      simp [ofExponent_power hp hs]

/-- A numeral with blanks in front is read as a whole. -/
theorem takeValue_numeral {b : List Char} (hn : n.Valid) (hs : Halts s) (hb : Blanks b)
    (fuel : Nat) : takeValue (fuel + 1) (glyphs b ++ (glyphs n.chars ++ s)) = (n.node, s) := by
  have hunsigned := ofUnsigned_numeral hn hs
  rw [takeValue, skipBlanks_append hb]
  cases hsign : n.negative with
  | true =>
    rw [hsign] at hunsigned
    simp [Numeral.chars, hsign, skipBlanks_cons (c := '-') rfl, hunsigned]
  | false =>
    obtain ⟨c, rest, hchars, hc⟩ := hn.unsignedChars_eq_cons
    have hword : c ≠ 'n' ∧ c ≠ 't' ∧ c ≠ 'f' ∧ c ≠ '-' := by
      refine ⟨?_, ?_, ?_, ?_⟩ <;> (rintro rfl; cases hc)
    have hblank : isBlank c = false := by
      rw [← Bool.not_eq_true]
      intro hblank
      simp only [isBlank, Bool.or_eq_true, decide_eq_true_eq] at hblank
      rcases hblank with ((h | h) | h) | h <;> subst h <;> cases hc
    rw [hsign, hchars] at hunsigned
    simp only [glyphs_cons, List.cons_append] at hunsigned
    simp [Numeral.chars, hsign, hchars, skipBlanks_cons hblank, hword, hc, hunsigned]

/-- The float that is read, if the node is a number and that is not too large. -/
def float? : Node → Option Float
  | float x => some x
  | integer k => some (Float.ofInt k)
  | _ => none

@[simp]
theorem float?_ofFloat? (x? : Option Float) : (ofFloat? x?).float? = x? := by
  cases x? <;> rfl

end Node

end Json

/-! ## The float of a numeral -/

/-- The float that a reader of floats takes out of a numeral, if the number is not too large. -/
def Numeral.float? (n : Numeral) : Option Float := n.node.float?

namespace Json

theorem ofFloat?_cases (x? : Option Float) :
    (∃ x, Node.ofFloat? x? = .float x) ∨ Node.ofFloat? x? = .outOfRange := by
  cases x? with
  | none => exact .inr rfl
  | some x => exact .inl ⟨x, rfl⟩

theorem node_cases (n : Numeral) :
    ((∃ x, n.node = .float x) ∨ n.node = .outOfRange) ∨ ∃ k, n.node = .integer k := by
  unfold Numeral.node
  dsimp only
  split
  · exact .inl (ofFloat?_cases _)
  split
  · unfold Node.ofDigits
    dsimp only
    split
    · exact .inl (ofFloat?_cases _)
    split
    · split
      · exact .inl (.inl ⟨_, rfl⟩)
      · exact .inr ⟨_, rfl⟩
    · exact .inr ⟨_, rfl⟩
  · exact .inl (ofFloat?_cases _)

/-- **What a reader of floats makes of a numeral.** -/
theorem float_node (n : Numeral) (source : Source) :
    Reader.float source n.node = n.float?.elim (.error (.fault .malformed)) .ok := by
  unfold Numeral.float?
  rcases node_cases n with (⟨x, hx⟩ | hlarge) | ⟨k, hk⟩
  · rw [hx]
    rfl
  · rw [hlarge]
    rfl
  · rw [hk]
    rfl

end Json

end Sparkboard
