import Mathlib.Data.List.DropRight
import Sparkboard.Proofs.Text.Utf8
import Sparkboard.Text.Blank
/-!
# Trimming

Trimming drops blanks at both ends and nothing else: a text without blanks at its ends is what
trimming leaves of it with blanks around it (`trimBoth_pad`).  Bytes are trimmed of the blanks of
ASCII alone, which leaves the bytes of a text (`trimBoth_encodeChars`); trimming this text of all
blanks makes up for the difference (`trimBoth_trimBoth`).
-/

namespace Sparkboard

namespace Text

section

variable {α : Type} {p q : α → Bool} {xs b b' : List α}

theorem trimBoth_eq (p : α → Bool) (xs : List α) :
    trimBoth p xs = (xs.dropWhile p).rdropWhile p := rfl

/-- What trimming drops are blanks in front and blanks behind. -/
theorem exists_eq_append_trimBoth (p : α → Bool) (xs : List α) :
    ∃ b b', xs = b ++ (trimBoth p xs ++ b') ∧ (∀ x ∈ b, p x = true) ∧ ∀ x ∈ b', p x = true := by
  refine ⟨xs.takeWhile p, (xs.dropWhile p).rtakeWhile p, ?_, fun x hx => List.mem_takeWhile_imp hx,
    fun x hx => List.mem_rtakeWhile_imp hx⟩
  rw [trimBoth_eq, List.rdropWhile_append_rtakeWhile, List.takeWhile_append_dropWhile]

theorem dropWhile_pad (hb : ∀ x ∈ b, p x = true) (xs : List α) :
    (b ++ xs).dropWhile p = xs.dropWhile p := by
  induction b with
  | nil => rfl
  | cons x b ih =>
    obtain ⟨hx, hb⟩ := List.forall_mem_cons.1 hb
    rw [List.cons_append, List.dropWhile_cons_of_pos hx, ih hb]

theorem rdropWhile_pad (hb : ∀ x ∈ b, p x = true) (xs : List α) :
    (xs ++ b).rdropWhile p = xs.rdropWhile p := by
  have hreverse : ∀ x ∈ b.reverse, p x = true := fun x hx => hb x (List.mem_reverse.1 hx)
  rw [List.rdropWhile, List.reverse_append, dropWhile_pad hreverse, List.rdropWhile]

/-- Blanks at the ends change nothing. -/
theorem trimBoth_pad (hb : ∀ x ∈ b, p x = true) (hb' : ∀ x ∈ b', p x = true) (xs : List α) :
    trimBoth p (b ++ (xs ++ b')) = trimBoth p xs := by
  rw [trimBoth_eq, trimBoth_eq, dropWhile_pad hb]
  by_cases hxs : ∀ x ∈ xs, p x = true
  · have hnil : xs.dropWhile p = [] := List.dropWhile_eq_nil_iff.2 hxs
    rw [dropWhile_pad hxs, hnil, List.dropWhile_eq_nil_iff.2 hb']
  · rw [List.dropWhile_append, if_neg, rdropWhile_pad hb']
    rwa [List.isEmpty_iff, List.dropWhile_eq_nil_iff]

theorem trimBoth_eq_self (h : ∀ x ∈ xs, p x = false) : trimBoth p xs = xs := by
  have hfront : xs.dropWhile p = xs := by
    cases xs with
    | nil => rfl
    | cons x xs => simp [h x (List.mem_cons_self ..)]
  rw [trimBoth_eq, hfront, List.rdropWhile_eq_self_iff]
  intro hne
  simp [h _ (List.getLast_mem hne)]

/-- Trimming of more makes up for trimming of less. -/
theorem trimBoth_trimBoth (h : ∀ x, q x = true → p x = true) (xs : List α) :
    trimBoth p (trimBoth q xs) = trimBoth p xs := by
  obtain ⟨b, b', heq, hb, hb'⟩ := exists_eq_append_trimBoth q xs
  conv => rhs; rw [heq]
  rw [trimBoth_pad (fun x hx => h x (hb x hx)) (fun x hx => h x (hb' x hx))]

end

/-! ## Bytes and characters -/

variable {c : Char} {cs : List Char}

open Utf8 (encodeChars)

/-- Is the character one of the blanks of ASCII? -/
def isAsciiBlank (c : Char) : Bool :=
  c.toNat < 0x80 && isBlankByte (UInt8.ofNat c.toNat)

theorem isBlank_of_isAsciiBlank (h : isAsciiBlank c = true) : isBlank c = true := by
  simp only [isAsciiBlank, isBlankByte, Bool.and_eq_true, decide_eq_true_eq, Bool.or_eq_true,
    beq_iff_eq, ← UInt8.toNat_inj, UInt8.toNat_ofNat'] at h
  simp at h
  simp [isBlank]
  omega

theorem isBlankByte_of_large {b : UInt8} (h : 0x80 ≤ b.toNat) : isBlankByte b = false := by
  simp only [isBlankByte, ← Bool.not_eq_true, Bool.or_eq_true, beq_iff_eq, ← UInt8.toNat_inj]
  simp
  omega

/-- The bytes of a character: one, which is blank if the character is, or several, none blank. -/
theorem blank_bytes (c : Char) :
    (∃ b, String.utf8EncodeChar c = [b] ∧ isBlankByte b = isAsciiBlank c) ∨
      (isAsciiBlank c = false ∧ ∀ b ∈ String.utf8EncodeChar c, isBlankByte b = false) := by
  rcases Utf8.utf8EncodeChar_cases c with ⟨b, hencode, hb⟩ | ⟨hlarge, hbytes⟩
  · refine .inl ⟨b, hencode, ?_⟩
    have hof : UInt8.ofNat c.toNat = b := by rw [← hb, UInt8.ofNat_toNat]
    rw [isAsciiBlank, hof]
    by_cases hsmall : c.toNat < 0x80
    · simp [hsmall]
    · simp [hsmall, isBlankByte_of_large (b := b) (by omega)]
  · refine .inr ⟨?_, fun b hb => isBlankByte_of_large (hbytes b hb)⟩
    have hnot : ¬c.toNat < 0x80 := by omega
    simp [isAsciiBlank, hnot]

theorem dropWhile_encodeChars (cs : List Char) :
    (encodeChars cs).dropWhile isBlankByte = encodeChars (cs.dropWhile isAsciiBlank) := by
  induction cs with
  | nil => rfl
  | cons c cs ih =>
    rw [Utf8.encodeChars_cons]
    rcases blank_bytes c with ⟨b, hencode, hb⟩ | ⟨hc, hbytes⟩
    · rw [hencode, List.singleton_append, List.dropWhile_cons, List.dropWhile_cons, hb]
      split
      · exact ih
      · rw [Utf8.encodeChars_cons, hencode, List.singleton_append]
    · obtain ⟨b, tail, hencode⟩ :=
        List.exists_cons_of_ne_nil (String.utf8EncodeChar_ne_nil (c := c))
      rw [List.dropWhile_cons_of_neg (by simp [hc]), Utf8.encodeChars_cons, hencode,
        List.cons_append, List.dropWhile_cons_of_neg (by simp [hbytes b (by simp [hencode])])]

theorem rdropWhile_encodeChars (cs : List Char) :
    (encodeChars cs).rdropWhile isBlankByte = encodeChars (cs.rdropWhile isAsciiBlank) := by
  induction cs using List.reverseRecOn with
  | nil => rfl
  | append_singleton cs c ih =>
    rw [Utf8.encodeChars_append, Utf8.encodeChars_cons, Utf8.encodeChars_nil, List.append_nil]
    rcases blank_bytes c with ⟨b, hencode, hb⟩ | ⟨hc, hbytes⟩
    · rw [hencode, List.rdropWhile_concat, List.rdropWhile_concat, hb]
      split
      · exact ih
      · rw [Utf8.encodeChars_append, Utf8.encodeChars_cons, hencode]
        rfl
    · obtain ⟨tail, b, hencode⟩ := List.eq_nil_or_concat (String.utf8EncodeChar c) |>.resolve_left
        String.utf8EncodeChar_ne_nil
      rw [List.rdropWhile_concat_neg _ _ _ (by simp [hc]), Utf8.encodeChars_append,
        Utf8.encodeChars_cons, Utf8.encodeChars_nil, List.append_nil, hencode,
        List.concat_eq_append, ← List.append_assoc,
        List.rdropWhile_concat_neg _ _ _ (by simp [hbytes b (by simp [hencode])])]

/-- Bytes of a text that are trimmed of the blanks of ASCII are those of the text that is. -/
theorem trimBoth_encodeChars (cs : List Char) :
    trimBoth isBlankByte (encodeChars cs) = encodeChars (trimBoth isAsciiBlank cs) := by
  rw [trimBoth_eq, dropWhile_encodeChars, rdropWhile_encodeChars, trimBoth_eq]

end Text

end Sparkboard
