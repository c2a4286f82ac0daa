import Sparkboard.Json.Value
import Sparkboard.Proofs.Json.Glyphs
/-!
# Strings in JSON text

What stands between two quotes spells characters one by one: each stands for itself, or is escaped
by a letter, by its number, or by the two halves of a pair (`Quotes`).  A string is read as what it
spells (`Quotes.takeString`), and what is written spells the string (`quotes_flatMap_escape`).
-/

namespace Sparkboard

namespace Json

namespace Node

/-- Do four hexadecimal digits spell this number? -/
def IsUnit (digits : List Char) (n : Nat) : Prop :=
  ∃ a b c d w x y z, digits = [a, b, c, d] ∧ hexValue? a = some w ∧ hexValue? b = some x ∧
    hexValue? c = some y ∧ hexValue? d = some z ∧ n = ((w * 16 + x) * 16 + y) * 16 + z

/-- Does the text between two quotes spell these characters? -/
inductive Quotes : List Char → List Char → Prop where
  | nil : Quotes [] []
  | plain {c text cs} (hquote : c ≠ '"') (hslash : c ≠ '\\') (hshown : ¬c.toNat < 0x20)
    (rest : Quotes text cs) : Quotes (c :: text) (c :: cs)
  | letter {e c text cs} (he : shortEscape? e = some c) (rest : Quotes text cs) :
    Quotes ('\\' :: e :: text) (c :: cs)
  | number {digits n text cs} (hn : IsUnit digits n) (hwhole : n < 0xD800 ∨ 0xDFFF < n)
    (rest : Quotes text cs) : Quotes ('\\' :: 'u' :: (digits ++ text)) (Char.ofNat n :: cs)
  | pair {digits n low m text cs} (hn : IsUnit digits n) (hm : IsUnit low m)
    (hhigh : 0xD800 ≤ n ∧ n < 0xDC00) (hlow : 0xDC00 ≤ m ∧ m ≤ 0xDFFF) (rest : Quotes text cs) :
    Quotes ('\\' :: 'u' :: (digits ++ '\\' :: 'u' :: (low ++ text)))
      (Char.ofNat (0x10000 + (n - 0xD800) * 1024 + (m - 0xDC00)) :: cs)

/-! ## Reading -/

variable {text cs digits low : List Char} {n m : Nat}

theorem IsUnit.length (h : IsUnit digits n) : digits.length = 4 := by
  obtain ⟨a, b, c, d, _, _, _, _, rfl, -⟩ := h
  rfl

theorem takeUnit_isUnit (h : IsUnit digits n) (s : List Glyph) :
    takeUnit (glyphs digits ++ s) = .ok (n, s) := by
  obtain ⟨a, b, c, d, w, x, y, z, rfl, ha, hb, hc, hd, rfl⟩ := h
  simp [takeUnit, ha, hb, hc, hd]

theorem takeEscaped_number (h : IsUnit digits n) (hwhole : n < 0xD800 ∨ 0xDFFF < n)
    (s : List Glyph) : takeEscaped (glyphs digits ++ s) = .ok (some (Char.ofNat n), s) := by
  have hwhole' : (n < 0xD800 || 0xDFFF < n) = true := by simpa using hwhole
  unfold takeEscaped
  rw [takeUnit_isUnit h]
  simp only [bind, Except.bind]
  rw [if_pos hwhole']
  rfl

theorem takeEscaped_pair (hn : IsUnit digits n) (hm : IsUnit low m)
    (hhigh : 0xD800 ≤ n ∧ n < 0xDC00) (hlow : 0xDC00 ≤ m ∧ m ≤ 0xDFFF) (s : List Glyph) :
    takeEscaped (glyphs digits ++ .char '\\' :: .char 'u' :: (glyphs low ++ s)) =
      .ok (some (Char.ofNat (0x10000 + (n - 0xD800) * 1024 + (m - 0xDC00))), s) := by
  have hhalf : ¬(n < 0xD800 || 0xDFFF < n) = true := by
    simp only [Bool.or_eq_true, decide_eq_true_eq]
    omega
  have hfits : ¬(m < 0xDC00 || 0xDFFF < m) = true := by
    simp only [Bool.or_eq_true, decide_eq_true_eq]
    omega
  unfold takeEscaped
  rw [takeUnit_isUnit hn]
  simp only [bind, Except.bind]
  rw [if_neg hhalf, if_neg (by omega)]
  simp only [takeUnit_isUnit hm]
  rw [if_neg hfits]
  rfl

theorem Quotes.take (h : Quotes text cs) {fuel : Nat} (hf : text.length < fuel) (s : List Glyph) :
    spellString true fuel (glyphs text ++ .char '"' :: s) = .ok cs ∧
      passString fuel (glyphs text ++ .char '"' :: s) = .ok s := by
  induction h generalizing fuel with
  | nil =>
    obtain ⟨fuel, rfl⟩ := Nat.exists_eq_succ_of_ne_zero (Nat.ne_of_gt hf)
    simp [spellString, passString]
  | @plain c text cs hquote hslash hshown rest ih =>
    obtain ⟨fuel, rfl⟩ := Nat.exists_eq_succ_of_ne_zero (Nat.ne_of_gt (Nat.zero_lt_of_lt hf))
    obtain ⟨hspell, hpass⟩ := ih (show text.length < fuel by simp at hf; omega)
    simp [spellString, passString, hquote, hslash, hshown, hspell, hpass, Except.map]
  | @letter e c text cs he rest ih =>
    obtain ⟨fuel, rfl⟩ := Nat.exists_eq_succ_of_ne_zero (Nat.ne_of_gt (Nat.zero_lt_of_lt hf))
    obtain ⟨hspell, hpass⟩ := ih (show text.length < fuel by simp at hf; omega)
    have hu : e ≠ 'u' := by
      rintro rfl
      cases he
    simp [spellString, passString, he, hspell, hpass, Except.map]
  | @number digits n text cs hn hwhole rest ih =>
    have hlength := hn.length
    obtain ⟨fuel, rfl⟩ := Nat.exists_eq_succ_of_ne_zero (Nat.ne_of_gt (Nat.zero_lt_of_lt hf))
    obtain ⟨hspell, hpass⟩ := ih (show text.length < fuel by simp at hf; omega)
    simp [spellString, passString, takeEscaped_number hn hwhole, takeUnit_isUnit hn, hspell, hpass,
      Except.map]
  | @pair digits n low m text cs hn hm hhigh hlow rest ih =>
    have hlength := hn.length
    have hlength' := hm.length
    obtain ⟨fuel, rfl⟩ := Nat.exists_eq_add_of_le (show 2 ≤ fuel by simp at hf; omega)
    obtain ⟨hspell, -⟩ := ih (show text.length < fuel + 1 by simp at hf; omega)
    obtain ⟨-, hpass⟩ := ih (show text.length < fuel by simp at hf; omega)
    simp [Nat.add_comm 2, spellString, passString, takeEscaped_pair hn hm hhigh hlow,
      takeUnit_isUnit hn, takeUnit_isUnit hm, hspell, hpass, Except.map]

theorem Quotes.takeString (h : Quotes text cs) {fuel : Nat} (hf : text.length < fuel)
    (s : List Glyph) :
    takeString fuel (glyphs text ++ .char '"' :: s) = .ok (some (String.ofList cs), s) := by
  obtain ⟨hspell, hpass⟩ := h.take hf s
  unfold Node.takeString
  rw [hspell, hpass]

/-! ## Writing -/

theorem hexValue?_hexDigit {k : Nat} (hk : k < 16) : hexValue? (hexDigit k) = some k := by
  have hall : ∀ k < 16, hexValue? (hexDigit k) = some k := by decide
  exact hall k hk

/-- A character as it is written spells itself. -/
theorem Quotes.escape (c : Char) (h : Quotes text cs) :
    Quotes (Json.escape c ++ text) (c :: cs) := by
  unfold Json.escape
  iterate 7
    split
    · next hc =>
      subst hc
      exact .letter rfl h
  split
  · next hcontrol =>
    have hunit : IsUnit ['0', '0', hexDigit (c.toNat / 16), hexDigit (c.toNat % 16)] c.toNat :=
      ⟨_, _, _, _, 0, 0, _, _, rfl, rfl, rfl, hexValue?_hexDigit (by omega),
        hexValue?_hexDigit (by omega), by omega⟩
    have hnumber := h.number hunit (.inl (by omega))
    rwa [Char.ofNat_toNat] at hnumber
  · next hquote hslash _ _ _ _ _ hshown => exact .plain hquote hslash hshown h

/-- What is written between the quotes of a string spells the string. -/
theorem quotes_flatMap_escape (cs : List Char) : Quotes (cs.flatMap Json.escape) cs := by
  induction cs with
  | nil => exact .nil
  | cons c cs ih =>
    rw [List.flatMap_cons]
    exact ih.escape c

end Node

end Json

end Sparkboard
