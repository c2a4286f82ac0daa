import Sparkboard.Decimal.Parse
import Sparkboard.Proofs.Decimal.Numeral
/-!
# Parsed decimals

A text is parsed as a finite float exactly if it is the spelling of a decimal (`parseFloat_literal`,
`exists_literal`).  A sign may stand in front, a plus as well, and digits are missing on one side of
the point at most.
-/

namespace Sparkboard

/-- The spelling of a decimal: a sign or none, digits, a point with digits behind it or none, a
power of ten or none. -/
structure Literal where
  sign : Option Bool
  whole : List Char
  places? : Option (List Char)
  power : Option PowerOfTen

namespace Literal

variable (l : Literal)

def pointChars : Option (List Char) → List Char
  | none => []
  | some places => '.' :: places

def unsignedChars : List Char :=
  l.whole ++ (pointChars l.places? ++ (l.power.map PowerOfTen.chars).getD [])

def chars : List Char := PowerOfTen.signChars l.sign ++ l.unsignedChars

def negative : Bool := l.sign = some true

def digits : List Char := l.whole ++ l.places?.getD []

def exponent : Int := (l.power.map PowerOfTen.value).getD 0 - (l.places?.getD []).length

def float : Float := Decimal.toFloat l.negative (Decimal.value l.digits) l.exponent

/-- Is this the spelling of a decimal?  There is a digit on one side of the point at least. -/
structure Valid (l : Literal) : Prop where
  digits : Decimal.IsDigits l.digits
  power : ∀ p ∈ l.power, p.Valid

variable {l : Literal} {c : Char}

theorem mem_signChars {sign : Option Bool} (hc : c ∈ PowerOfTen.signChars sign) :
    c ∈ ['-', '+', '.', 'e', 'E'] := by
  rcases sign with - | - | -
  · cases hc
  · rw [List.mem_singleton.1 hc]
    decide
  · rw [List.mem_singleton.1 hc]
    decide

theorem Valid.mem_power (h : l.Valid) (hc : c ∈ (l.power.map PowerOfTen.chars).getD []) :
    Decimal.isDigit c = true ∨ c ∈ ['-', '+', '.', 'e', 'E'] := by
  cases hp : l.power with
  | none =>
    rw [hp] at hc
    cases hc
  | some p =>
    have hvalid := h.power p hp
    rw [hp] at hc
    rcases List.mem_cons.1 hc with rfl | hc
    · rcases hvalid.mark with hmark | hmark <;> rw [hmark] <;> exact .inr (by decide)
    rcases List.mem_append.1 hc with hc | hc
    · exact .inr (mem_signChars hc)
    · exact .inl (hvalid.digits.all c hc)

theorem Valid.mem_chars (h : l.Valid) (hc : c ∈ l.chars) :
    Decimal.isDigit c = true ∨ c ∈ ['-', '+', '.', 'e', 'E'] := by
  rcases List.mem_append.1 hc with hc | hc
  · exact .inr (mem_signChars hc)
  rcases List.mem_append.1 hc with hc | hc
  · exact .inl (h.digits.all c (List.mem_append_left _ hc))
  rcases List.mem_append.1 hc with hc | hc
  · cases hp : l.places? with
    | none =>
      rw [hp] at hc
      cases hc
    | some places =>
      rw [hp] at hc
      rcases List.mem_cons.1 hc with rfl | hc
      · exact .inr (by decide)
      · exact .inl (h.digits.all c (List.mem_append_right _ (by rwa [hp])))
  · exact h.mem_power hc

/-- A decimal without its sign starts with a digit or with the point. -/
theorem Valid.head_unsignedChars (h : l.Valid) :
    ∃ c rest, l.unsignedChars = c :: rest ∧ (Decimal.isDigit c = true ∨ c = '.') := by
  have hdigits := h.digits
  obtain ⟨sign, whole, places?, power⟩ := l
  cases whole with
  | cons c whole => exact ⟨c, _, rfl, .inl (hdigits.all c (List.mem_cons_self ..))⟩
  | nil =>
    cases places? with
    | none => exact absurd rfl hdigits.ne_nil
    | some places => exact ⟨'.', _, rfl, .inr rfl⟩

end Literal

namespace Decimal

variable {l : Literal} {p : PowerOfTen} {ds rest s : List Char} {x : Float}

/-! ## Decimals are parsed -/

theorem takeWhile_digits (h : ∀ c ∈ ds, isDigit c = true)
    (hrest : ∀ c, rest.head? = some c → isDigit c = false) :
    (ds ++ rest).takeWhile isDigit = ds ∧ (ds ++ rest).dropWhile isDigit = rest := by
  induction ds with
  | nil =>
    cases rest with
    | nil => exact ⟨rfl, rfl⟩
    | cons c rest => simp [hrest c rfl]
  | cons c ds ih =>
    obtain ⟨hc, hds⟩ := List.forall_mem_cons.1 h
    simp [hc, ih hds]

theorem exponent?_chars (hp : p.Valid) : exponent? p.chars = some p.value := by
  obtain ⟨mark, sign, digits⟩ := p
  have hmark : (mark = 'e' || mark = 'E') = true := by simpa using hp.mark
  obtain ⟨c, ds, rfl⟩ : ∃ c ds, digits = c :: ds := List.exists_cons_of_ne_nil hp.digits.ne_nil
  obtain ⟨hc, hds⟩ := List.forall_mem_cons.1 hp.digits.all
  cases sign with
  | none =>
    have hplus : c ≠ '+' := by rintro rfl; cases hc
    have hminus : c ≠ '-' := by rintro rfl; cases hc
    simpa [exponent?, PowerOfTen.chars, PowerOfTen.signChars, PowerOfTen.value, hmark, takeSign, hc,
      hplus, hminus] using hds
  | some minus =>
    cases minus <;>
      simpa [exponent?, PowerOfTen.chars, PowerOfTen.signChars, PowerOfTen.value, hmark, takeSign,
        hc] using hds

theorem head_power {power : Option PowerOfTen} (h : ∀ p ∈ power, p.Valid) {c : Char}
    (hc : ((power.map PowerOfTen.chars).getD []).head? = some c) : c = 'e' ∨ c = 'E' := by
  cases power with
  | none => cases hc
  | some p =>
    cases hc
    exact (h p rfl).mark

theorem exponent?_power {power : Option PowerOfTen} (h : ∀ p ∈ power, p.Valid) :
    exponent? ((power.map PowerOfTen.chars).getD []) =
      some ((power.map PowerOfTen.value).getD 0) := by
  cases power with
  | none => rfl
  | some p => exact exponent?_chars (h p rfl)

theorem unsignedFloat?_literal (hl : l.Valid) (negative : Bool) :
    unsignedFloat? negative l.unsignedChars =
      some (toFloat negative (value l.digits) l.exponent) := by
  obtain ⟨sign, whole, places?, power⟩ := l
  have hexponent := exponent?_power hl.power
  have hpower (c : Char) (hc : ((power.map PowerOfTen.chars).getD []).head? = some c) :
      isDigit c = false ∧ c ≠ '.' := by
    rcases head_power hl.power hc with h | h <;> rw [h] <;> decide
  have hwhole : ∀ c ∈ whole, isDigit c = true := fun c hc =>
    hl.digits.all c (List.mem_append_left _ hc)
  have hne : whole ++ places?.getD [] ≠ [] := hl.digits.ne_nil
  unfold Literal.unsignedChars Literal.digits Literal.exponent unsignedFloat?
  cases places? with
  | none =>
    obtain ⟨htake, hdrop⟩ := takeWhile_digits hwhole fun c hc => (hpower c hc).1
    rw [Option.getD_none, List.append_nil] at hne
    simp only [Literal.pointChars, List.nil_append, htake, hdrop]
    dsimp only at hexponent hpower ⊢
    cases hchars : (power.map PowerOfTen.chars).getD [] with
    | nil =>
      rw [hchars] at hexponent
      simp [hne, hexponent, guard]
    | cons c rest =>
      have hpoint : c ≠ '.' := (hpower c (by rw [hchars]; rfl)).2
      rw [hchars] at hexponent
      simp [hne, hexponent, guard, hpoint]
  | some places =>
    have hplaces : ∀ c ∈ places, isDigit c = true := fun c hc =>
      hl.digits.all c (List.mem_append_right _ hc)
    have hpoint (rest : List Char) (c : Char) (hc : ('.' :: rest).head? = some c) :
        isDigit c = false := by
      cases hc
      rfl
    obtain ⟨htake, hdrop⟩ := takeWhile_digits hwhole
      (hpoint (places ++ (power.map PowerOfTen.chars).getD []))
    obtain ⟨htake', hdrop'⟩ := takeWhile_digits hplaces fun c hc => (hpower c hc).1
    simp only [Literal.pointChars, List.cons_append, htake, hdrop, htake', hdrop']
    rw [Option.getD_some] at hne
    simp [hexponent, guard, hne]

theorem toLower_digit {c : Char} (hc : isDigit c = true) : c.toLower = c := by
  simp only [isDigit, Bool.and_eq_true, decide_eq_true_eq, Char.le_def] at hc
  have hupper : ¬c.val ≥ 65 := by
    have hle := UInt32.le_iff_toNat_le.1 hc.2
    rw [ge_iff_le, UInt32.le_iff_toNat_le]
    simp at hle ⊢
    omega
  exact dif_neg fun h => hupper h.1

/-- A decimal is none of the words that stand for floats. -/
theorem lower_ne {c : Char} (hc : isDigit c = true ∨ c = '.') (rest : List Char) {w : Char}
    {word : List Char} (hw : isDigit w = false ∧ w ≠ '.') :
    String.ofList ((c :: rest).map Char.toLower) ≠ String.ofList (w :: word) := by
  intro heq
  have hhead : c.toLower = w := (List.cons.inj (String.ofList_injective heq)).1
  rcases hc with hc | rfl
  · rw [toLower_digit hc] at hhead
    rw [hhead, hw.1] at hc
    cases hc
  · exact hw.2 hhead.symm

/-- **The spelling of a decimal is parsed** as the float nearest to it. -/
theorem parseFloat_literal (hl : l.Valid) : parseFloat l.chars = .ok l.float := by
  obtain ⟨c, rest, hchars, hc⟩ := hl.head_unsignedChars
  have hunsigned := unsignedFloat?_literal hl l.negative
  have hsign : takeSign l.chars = (l.negative, l.unsignedChars) := by
    unfold Literal.chars Literal.negative
    rcases l.sign with - | - | -
    · have hplus : c ≠ '+' := by rintro rfl; revert hc; decide
      have hminus : c ≠ '-' := by rintro rfl; revert hc; decide
      simp [PowerOfTen.signChars, hchars, takeSign, hplus, hminus]
    · rfl
    · rfl
  have hword (w : Char) (word : List Char) (hw : isDigit w = false ∧ w ≠ '.') :
      String.ofList (l.unsignedChars.map Char.toLower) ≠ String.ofList (w :: word) := by
    rw [hchars]
    exact lower_ne hc rest hw
  have hinf := hword 'i' ['n', 'f'] (by decide)
  have hinfinity := hword 'i' ['n', 'f', 'i', 'n', 'i', 't', 'y'] (by decide)
  have hnan := hword 'n' ['a', 'n'] (by decide)
  have hne : l.chars.isEmpty = false := by simp [Literal.chars, hchars]
  unfold parseFloat
  rw [if_neg (by simp [hne]), hsign]
  dsimp only
  rw [if_neg (by simpa using ⟨hinf, hinfinity⟩), if_neg (by simpa using hnan), hunsigned]
  rfl

/-! ## Nothing else is parsed as a finite float -/

theorem exists_sign (s : List Char) :
    ∃ sign, PowerOfTen.signChars sign ++ (takeSign s).2 = s := by
  unfold takeSign
  split
  · exact ⟨some true, rfl⟩
  · exact ⟨some false, rfl⟩
  · exact ⟨none, rfl⟩

/-- What stands behind the mantissa is a power of ten or nothing. -/
theorem exists_power {z : Int} (h : exponent? s = some z) :
    ∃ power : Option PowerOfTen, (∀ p ∈ power, p.Valid) ∧
      (power.map PowerOfTen.chars).getD [] = s := by
  cases s with
  | nil => exact ⟨none, nofun, rfl⟩
  | cons mark rest =>
    obtain ⟨sign, hsign⟩ := exists_sign rest
    by_cases hmark : (mark = 'e' || mark = 'E') = true
    · rw [exponent?, if_pos hmark] at h
      by_cases hdigits : ((takeSign rest).2.isEmpty || !(takeSign rest).2.all isDigit) = true
      · simp [hdigits] at h
      · simp only [Bool.or_eq_true, List.isEmpty_iff, Bool.not_eq_true', not_or, Bool.not_eq_false,
          List.all_eq_true] at hdigits
        refine ⟨some ⟨mark, sign, (takeSign rest).2⟩, fun p hp => ?_,
          congrArg (mark :: ·) hsign⟩
        cases hp
        exact ⟨by simpa using hmark, hdigits.1, hdigits.2⟩
    · rw [exponent?, if_neg hmark] at h
      cases h

theorem ne_nil_of_guard {ds : List Char} {u : Unit}
    (h : (guard (!ds.isEmpty) : Option Unit) = some u) : ds ≠ [] := by
  rintro rfl
  cases h

theorem exists_unsigned {negative : Bool} (h : unsignedFloat? negative s = some x)
    (sign : Option Bool) : ∃ l : Literal, l.Valid ∧ l.sign = sign ∧ l.unsignedChars = s := by
  have htake (s : List Char) : ∀ c ∈ s.takeWhile isDigit, isDigit c = true :=
    List.all_eq_true.1 List.all_takeWhile
  have hsplit (s : List Char) : s.takeWhile isDigit ++ s.dropWhile isDigit = s :=
    List.takeWhile_append_dropWhile
  simp only [unsignedFloat?, Option.bind_eq_bind] at h
  split at h
  · next places heq =>
    simp only [Option.bind_eq_some_iff] at h
    obtain ⟨u, hguard, z, hz, -⟩ := h
    obtain ⟨power, hpower, hchars⟩ := exists_power hz
    refine ⟨⟨sign, s.takeWhile isDigit, some (places.takeWhile isDigit), power⟩,
      ⟨⟨ne_nil_of_guard hguard, List.forall_mem_append.2 ⟨htake s, htake places⟩⟩, hpower⟩,
      rfl, ?_⟩
    have hplaces := hsplit places
    rw [← hchars] at hplaces
    show s.takeWhile isDigit ++ ('.' :: (places.takeWhile isDigit ++ _)) = s
    rw [hplaces, ← heq, hsplit]
  · simp only [Option.bind_eq_some_iff] at h
    obtain ⟨u, hguard, z, hz, -⟩ := h
    obtain ⟨power, hpower, hchars⟩ := exists_power hz
    refine ⟨⟨sign, s.takeWhile isDigit, none, power⟩,
      ⟨⟨ne_nil_of_guard hguard, List.forall_mem_append.2 ⟨htake s, nofun⟩⟩, hpower⟩, rfl, ?_⟩
    show s.takeWhile isDigit ++ ([] ++ _) = s
    rw [List.nil_append, hchars, hsplit]

/-- **Whatever is parsed as a finite float is the spelling of a decimal.** -/
theorem exists_literal (h : parseFloat s = .ok x) (hfinite : x.isFinite = true) :
    ∃ l : Literal, l.Valid ∧ l.chars = s := by
  have hinfinite (negative : Bool) :
      (if negative then -1.0 / 0.0 else 1.0 / 0.0 : Float).isFinite = false := by
    cases negative <;> decide
  have hnan : (0.0 / 0.0 : Float).isFinite = false := by decide
  obtain ⟨sign, hsign⟩ := exists_sign s
  unfold parseFloat at h
  dsimp only at h
  split at h
  · cases h
  split at h
  · cases h
    rw [hinfinite] at hfinite
    cases hfinite
  split at h
  · cases h
    rw [hnan] at hfinite
    cases hfinite
  split at h
  · next y hunsigned =>
    obtain ⟨l, hvalid, rfl, hchars⟩ := exists_unsigned hunsigned sign
    exact ⟨l, hvalid, by rw [Literal.chars, hchars, hsign]⟩
  · cases h

end Decimal

end Sparkboard
