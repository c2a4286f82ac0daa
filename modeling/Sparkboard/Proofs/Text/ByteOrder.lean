import Sparkboard.Proofs.Text.Utf8
/-!
# The order of bytes

Texts are ordered by their characters.  The bytes of a larger character are larger, whatever comes
behind either of them (`utf8EncodeChar_append_lt`), so the bytes of texts are ordered as the texts
are (`encode_lt_encode`).
-/

namespace Sparkboard

namespace Utf8

variable {c d : Char} {cs ds : List Char} {s t : String}

/-- The bytes of a character carry the digits of its number in base 64, and the first of them tells
how many digits there are. -/
inductive Digits (c : Char) : List UInt8 → Prop where
  | one {k : Nat} (hc : c.toNat = k) (hk : k < 0x80) : Digits c [.ofNat k]
  | two {k l : Nat} (hc : c.toNat = k * 64 + l) (hk : 0x80 ≤ k * 64 + l ∧ k < 0x20) (hl : l < 64) :
    Digits c [.ofNat (k + 0xc0), .ofNat (l + 0x80)]
  | three {k l m : Nat} (hc : c.toNat = (k * 64 + l) * 64 + m)
    (hk : 0x800 ≤ (k * 64 + l) * 64 + m ∧ k < 0x10) (hl : l < 64) (hm : m < 64) :
    Digits c [.ofNat (k + 0xe0), .ofNat (l + 0x80), .ofNat (m + 0x80)]
  | four {k l m n : Nat} (hc : c.toNat = ((k * 64 + l) * 64 + m) * 64 + n)
    (hk : 0x10000 ≤ ((k * 64 + l) * 64 + m) * 64 + n ∧ k < 8) (hl : l < 64) (hm : m < 64)
    (hn : n < 64) :
    Digits c [.ofNat (k + 0xf0), .ofNat (l + 0x80), .ofNat (m + 0x80), .ofNat (n + 0x80)]

theorem digits_utf8EncodeChar (c : Char) : Digits c (String.utf8EncodeChar c) := by
  have hvalid : c.val.toNat < 0xd800 ∨ 0xdfff < c.val.toNat ∧ c.val.toNat < 0x110000 := c.valid
  have htoNat : c.toNat = c.val.toNat := rfl
  unfold String.utf8EncodeChar
  dsimp only
  split
  · exact .one htoNat (by omega)
  split
  · exact .two (by omega) (by omega) (by omega)
  split
  · exact .three (by omega) (by omega) (by omega) (by omega)
  · exact .four (by omega) (by omega) (by omega) (by omega) (by omega)

/-- The bytes of the larger of two characters are larger, whatever comes behind them. -/
theorem utf8EncodeChar_append_lt (h : c < d) (bs bs' : List UInt8) :
    String.utf8EncodeChar c ++ bs < String.utf8EncodeChar d ++ bs' := by
  have hlt : c.toNat < d.toNat := h
  have hc := digits_utf8EncodeChar c
  have hd := digits_utf8EncodeChar d
  generalize String.utf8EncodeChar c = bytes at *
  generalize String.utf8EncodeChar d = bytes' at *
  -- more digits mean a larger first byte, and equally many are compared one by one
  cases hc <;> cases hd <;>
  simp only [List.cons_append, List.nil_append, List.cons_lt_cons_iff, UInt8.lt_iff_toNat_lt,
    ← UInt8.toNat_inj, UInt8.toNat_ofNat'] <;>
  omega

theorem encodeChars_lt_encodeChars (h : cs < ds) : encodeChars cs < encodeChars ds := by
  induction h with
  | @nil d ds =>
    obtain ⟨a, tail, hbytes, -⟩ := scalar_utf8EncodeChar d
    rw [encodeChars_cons, hbytes]
    exact List.nil_lt_cons _ _
  | rel hlt => exact utf8EncodeChar_append_lt hlt _ _
  | @cons c cs ds _ ih =>
    rw [encodeChars_cons, encodeChars_cons]
    induction String.utf8EncodeChar c with
    | nil => exact ih
    | cons b bs ihb => exact List.cons_lt_cons_iff.2 (.inr ⟨rfl, ihb⟩)

/-- The bytes of texts are ordered as the texts are. -/
theorem encode_lt_encode (h : s < t) : encode s < encode t :=
  encodeChars_lt_encodeChars h

end Utf8

end Sparkboard
