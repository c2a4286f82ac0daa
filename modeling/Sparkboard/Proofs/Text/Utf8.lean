import Sparkboard.Proofs.Json.Glyphs
import Sparkboard.Text.Glyph
/-!
# UTF-8 there and back

The bytes of a text are read as the characters of the text (`decode_encodeChars`).  A byte below 128
is a character of its own: the bytes of all others are larger (`utf8EncodeChar_cases`).
-/

namespace Sparkboard

namespace Utf8

/-! ## Reading one character -/

section

variable {a b c d : UInt8} {v n : Nat}

/-- A byte that continues a character, with its six bits. -/
theorem isTail_of (hb : b.toNat = n + 0x80) (hn : n < 0x40) : isTail b = true ∧ tailBits b = n := by
  refine ⟨?_, Nat.sub_eq_of_eq_add hb⟩
  simp [isTail, UInt8.le_iff_toNat_le, hb]
  omega

theorem scalar_one (ha : a.toNat = v) (h : v ≤ 0x7f) (rest : List UInt8) :
    scalar a rest = some (Char.ofNat v, 0) := by
  have hsmall : a < 0x80 := by
    simp [UInt8.lt_iff_toNat_lt, ha]
    omega
  cases rest <;> simp [scalar, hsmall, ha]

theorem scalar_two (ha : a.toNat = v / 64 + 0xc0) (hb : b.toNat = v % 64 + 0x80) (h : 0x80 ≤ v)
    (h' : v ≤ 0x7ff) (rest : List UInt8) : scalar a (b :: rest) = some (Char.ofNat v, 1) := by
  obtain ⟨htail, hbits⟩ := isTail_of hb (by omega)
  have hlarge : ¬a < 0x80 := by simp [UInt8.lt_iff_toNat_lt, ha]
  have hlead : (0xC2 ≤ a && a ≤ 0xDF && isTail b) = true := by
    simp [htail, UInt8.le_iff_toNat_le, ha]
    omega
  have hv : (v / 64 + 0xC0 - 0xC0) * 64 + v % 64 = v := by omega
  rw [scalar.eq_def]
  simp only [if_neg hlarge, if_pos hlead, hbits, ha, hv]

theorem scalar_three (ha : a.toNat = v / 4096 + 0xe0) (hb : b.toNat = v / 64 % 64 + 0x80)
    (hc : c.toNat = v % 64 + 0x80) (h : 0x800 ≤ v) (h' : v ≤ 0xffff)
    (hsurrogate : v < 0xd800 ∨ 0xdfff < v) (rest : List UInt8) :
    scalar a (b :: c :: rest) = some (Char.ofNat v, 2) := by
  obtain ⟨htailb, hbitsb⟩ := isTail_of hb (by omega)
  obtain ⟨htailc, hbitsc⟩ := isTail_of hc (by omega)
  have hlarge : ¬a < 0x80 := by simp [UInt8.lt_iff_toNat_lt, ha]
  have htwo : ¬(0xC2 ≤ a && a ≤ 0xDF && isTail b) = true := by simp [UInt8.le_iff_toNat_le, ha]
  have hlead : (isSecondOfThree a b && isTail c) = true := by
    rw [htailc, Bool.and_true]
    unfold isSecondOfThree
    simp [htailb, ← UInt8.toNat_inj, UInt8.le_iff_toNat_le, ha, hb]
    split
    · omega
    split <;> omega
  have hv : ((v / 4096 + 0xe0 - 0xe0) * 64 + v / 64 % 64) * 64 + v % 64 = v := by omega
  rw [scalar.eq_def]
  simp only [if_neg hlarge, if_neg htwo, if_pos hlead, hbitsb, hbitsc, ha, hv]

theorem scalar_four (ha : a.toNat = v / 262144 + 0xf0) (hb : b.toNat = v / 4096 % 64 + 0x80)
    (hc : c.toNat = v / 64 % 64 + 0x80) (hd : d.toNat = v % 64 + 0x80) (h : 0x10000 ≤ v)
    (h' : v ≤ 0x10ffff) (rest : List UInt8) :
    scalar a (b :: c :: d :: rest) = some (Char.ofNat v, 3) := by
  obtain ⟨htailb, hbitsb⟩ := isTail_of hb (by omega)
  obtain ⟨htailc, hbitsc⟩ := isTail_of hc (by omega)
  obtain ⟨htaild, hbitsd⟩ := isTail_of hd (by omega)
  have hlarge : ¬a < 0x80 := by simp [UInt8.lt_iff_toNat_lt, ha]
  have htwo : ¬(0xC2 ≤ a && a ≤ 0xDF && isTail b) = true := by simp [UInt8.le_iff_toNat_le, ha]
  have hthree : ¬(isSecondOfThree a b && isTail c) = true := by
    unfold isSecondOfThree
    simp [← UInt8.toNat_inj, UInt8.le_iff_toNat_le, ha]
  have hlead : (isSecondOfFour a b && isTail c && isTail d) = true := by
    rw [htailc, htaild, Bool.and_true, Bool.and_true]
    unfold isSecondOfFour
    simp [htailb, ← UInt8.toNat_inj, UInt8.le_iff_toNat_le, ha, hb]
    split
    · omega
    split <;> omega
  have hv : (((v / 262144 + 0xf0 - 0xf0) * 64 + v / 4096 % 64) * 64 + v / 64 % 64) * 64 + v % 64 =
      v := by omega
  rw [scalar.eq_def]
  simp only [if_neg hlarge, if_neg htwo, if_neg hthree, if_pos hlead, hbitsb, hbitsc, hbitsd, ha,
    hv]

end

variable {c : Char} {cs : List Char}

theorem toNat_ofNat {n m : Nat} (h : n < 256) (heq : n = m) : (UInt8.ofNat n).toNat = m := by
  rw [UInt8.toNat_ofNat', Nat.mod_eq_of_lt h, heq]

/-- The first byte of a character tells how many of the bytes behind it belong to it. -/
theorem scalar_utf8EncodeChar (c : Char) : ∃ a tail, String.utf8EncodeChar c = a :: tail ∧
    ∀ rest, scalar a (tail ++ rest) = some (c, tail.length) := by
  have hvalid : c.val.toNat < 0xd800 ∨ 0xdfff < c.val.toNat ∧ c.val.toNat < 0x110000 := c.valid
  have hc : Char.ofNat c.val.toNat = c := Char.ofNat_toNat c
  unfold String.utf8EncodeChar
  dsimp only
  split
  · next h =>
    refine ⟨_, _, rfl, fun rest => ?_⟩
    rw [scalar_one (toNat_ofNat (by omega) rfl) h, hc]
    rfl
  split
  · next h =>
    refine ⟨_, _, rfl, fun rest => ?_⟩
    rw [List.singleton_append, scalar_two (toNat_ofNat (by omega) (by omega))
      (toNat_ofNat (by omega) rfl) (by omega) h, hc]
    rfl
  split
  · next h =>
    refine ⟨_, _, rfl, fun rest => ?_⟩
    rw [List.cons_append, List.singleton_append, scalar_three (toNat_ofNat (by omega) (by omega))
      (toNat_ofNat (by omega) rfl) (toNat_ofNat (by omega) rfl) (by omega) h (by omega), hc]
    rfl
  · refine ⟨_, _, rfl, fun rest => ?_⟩
    rw [List.cons_append, List.cons_append, List.singleton_append,
      scalar_four (toNat_ofNat (by omega) (by omega)) (toNat_ofNat (by omega) rfl)
        (toNat_ofNat (by omega) rfl) (toNat_ofNat (by omega) rfl) (by omega) (by omega), hc]
    rfl

/-! ## Reading texts -/

def encodeChars (cs : List Char) : List UInt8 := cs.flatMap String.utf8EncodeChar

@[simp]
theorem encodeChars_nil : encodeChars [] = [] := rfl

@[simp]
theorem encodeChars_cons (c : Char) (cs : List Char) :
    encodeChars (c :: cs) = String.utf8EncodeChar c ++ encodeChars cs := rfl

@[simp]
theorem encodeChars_append (xs ys : List Char) :
    encodeChars (xs ++ ys) = encodeChars xs ++ encodeChars ys := List.flatMap_append

theorem encode_eq (s : String) : encode s = encodeChars s.toList := rfl

/-- Bytes that belong to a character read already are passed over. -/
theorem decodeFrom_append (bs rest : List UInt8) :
    decodeFrom bs.length (bs ++ rest) = decode rest := by
  induction bs with
  | nil => rfl
  | cons b bs ih => exact ih

theorem decode_utf8EncodeChar_append (c : Char) (rest : List UInt8) :
    decode (String.utf8EncodeChar c ++ rest) = .char c :: decode rest := by
  obtain ⟨a, tail, hencode, hscalar⟩ := scalar_utf8EncodeChar c
  rw [hencode, List.cons_append, decode, decodeFrom, hscalar rest]
  dsimp only
  rw [decodeFrom_append]

/-- The bytes of a text are read as its characters. -/
@[simp]
theorem decode_encodeChars (cs : List Char) : decode (encodeChars cs) = glyphs cs := by
  induction cs with
  | nil => rfl
  | cons c cs ih => rw [encodeChars_cons, decode_utf8EncodeChar_append, ih, glyphs_cons]

theorem text?_encode (s : String) : text? (encode s) = some s := by
  have hchars (cs : List Char) : Glyph.chars? (glyphs cs) = some cs := by
    induction cs with
    | nil => rfl
    | cons c cs ih => rw [glyphs_cons, Glyph.chars?, ih, Option.map_some]
  unfold text?
  rw [encode_eq, decode_encodeChars, hchars, Option.map_some, String.ofList_toList]

/-! ## Bytes below 128 -/

/-- A character below 128 is one byte, and all bytes of other characters are larger. -/
theorem utf8EncodeChar_cases (c : Char) :
    (∃ b, String.utf8EncodeChar c = [b] ∧ b.toNat = c.toNat) ∨
      (0x80 ≤ c.toNat ∧ ∀ b ∈ String.utf8EncodeChar c, 0x80 ≤ b.toNat) := by
  have hvalid : c.val.toNat < 0xd800 ∨ 0xdfff < c.val.toNat ∧ c.val.toNat < 0x110000 := c.valid
  have htoNat : c.toNat = c.val.toNat := rfl
  have hlarge {n : Nat} (h : n < 256) (h' : 0x80 ≤ n) : 0x80 ≤ (UInt8.ofNat n).toNat := by
    rwa [toNat_ofNat h rfl]
  unfold String.utf8EncodeChar
  dsimp only
  rw [htoNat]
  split
  · next h => exact .inl ⟨_, rfl, toNat_ofNat (by omega) rfl⟩
  right
  refine ⟨by omega, ?_⟩
  split
  · simp only [List.forall_mem_cons]
    exact ⟨hlarge (by omega) (by omega), hlarge (by omega) (by omega), nofun⟩
  split
  · simp only [List.forall_mem_cons]
    exact ⟨hlarge (by omega) (by omega), hlarge (by omega) (by omega),
      hlarge (by omega) (by omega), nofun⟩
  · simp only [List.forall_mem_cons]
    exact ⟨hlarge (by omega) (by omega), hlarge (by omega) (by omega),
      hlarge (by omega) (by omega), hlarge (by omega) (by omega), nofun⟩

end Utf8

end Sparkboard
