import Mathlib.Data.Nat.Digits.Defs
import Sparkboard.Decimal.Digits
/-!
# Rows of digits

The digits of a whole number spell it, start with no zero, and are few if the number is small.
-/

namespace Sparkboard.Decimal

variable {n : Nat} {c : Char} {xs ys : List Char}

/-- Are these digits, and at least one? -/
structure IsDigits (ds : List Char) : Prop where
  ne_nil : ds ≠ []
  all : ∀ c ∈ ds, isDigit c = true

theorem isDigit_iff : isDigit c = true ↔ c.isDigit = true := by
  simp [isDigit, Char.isDigit, Char.le_def]

theorem isDigits_digits (n : Nat) : IsDigits (digits n) where
  ne_nil := Nat.toDigits_ne_nil
  all c hc := isDigit_iff.2 (Nat.isDigit_of_mem_toDigits (by omega) (by omega) hc)

/-- What a row of digits spells, read on from a number. -/
theorem value_eq (xs : List Char) : value xs = Nat.ofDigitChars 10 xs 0 := by
  unfold value Nat.ofDigitChars digitValue
  congr 1
  funext n c
  rw [Nat.mul_comm]

@[simp]
theorem value_digits (n : Nat) : value (digits n) = n := by
  rw [value_eq]
  exact Nat.ofDigitChars_ten_toDigits

theorem foldl_value (n : Nat) (xs : List Char) :
    xs.foldl (fun n c => n * 10 + digitValue c) n = n * 10 ^ xs.length + value xs := by
  unfold value
  induction xs generalizing n with
  | nil => simp
  | cons c xs ih =>
    rw [List.foldl_cons, List.foldl_cons, ih, ih (0 * 10 + digitValue c), List.length_cons]
    ring

/-- Digits in front count for as many powers of ten as digits follow. -/
theorem value_append (xs ys : List Char) :
    value (xs ++ ys) = value xs * 10 ^ ys.length + value ys := by
  rw [← foldl_value]
  unfold value
  rw [List.foldl_append]

@[simp]
theorem value_replicate_zero (k : Nat) : value (List.replicate k '0') = 0 := by
  induction k with
  | zero => rfl
  | succ k ih =>
    rw [List.replicate_succ, ← List.singleton_append, value_append, ih]
    simp [value, digitValue]

/-- The digits of a number other than zero start with another digit than zero. -/
theorem head_digits (hn : n ≠ 0) : (digits n).head? ≠ some '0' := by
  unfold digits
  induction n using Nat.strongRecOn with
  | ind n ih =>
    rw [Nat.toDigits_eq_if (by omega)]
    split
    · next hlt =>
      have hdigits : ∀ k < 10, k ≠ 0 → [k.digitChar].head? ≠ some '0' := by decide
      exact hdigits n hlt hn
    · next hge =>
      have hrest : n / 10 ≠ 0 := by omega
      have hhead := ih (n / 10) (by omega) hrest
      cases hdigits : Nat.toDigits 10 (n / 10) with
      | nil => exact absurd hdigits Nat.toDigits_ne_nil
      | cons c cs => simpa [hdigits] using hhead

@[simp]
theorem digits_zero : digits 0 = ['0'] := rfl

theorem length_digits_le {k : Nat} (hk : 0 < k) : (digits n).length ≤ k ↔ n < 10 ^ k :=
  Nat.length_toDigits_le_iff (by omega) hk

theorem length_digits_pos (n : Nat) : 0 < (digits n).length :=
  List.length_pos_iff.2 (isDigits_digits n).ne_nil

theorem digits_bounds (hn : 0 < n) :
    10 ^ ((digits n).length - 1) ≤ n ∧ n < 10 ^ (digits n).length := by
  have hpos := length_digits_pos n
  refine ⟨?_, (length_digits_le hpos).1 le_rfl⟩
  by_cases hone : (digits n).length = 1
  · rw [hone]
    exact hn
  · have hlong : ¬(digits n).length ≤ (digits n).length - 1 := by omega
    rw [length_digits_le (by omega)] at hlong
    omega

/-- A digit is worth more than three bits. -/
theorem two_pow_lt_ten_pow {a b : Nat} (h : a < 3 * b) : 2 ^ a < 10 ^ b :=
  calc 2 ^ a < 2 ^ (3 * b) := Nat.pow_lt_pow_right (by omega) h
    _ = (2 ^ 3) ^ b := Nat.pow_mul 2 3 b
    _ ≤ 10 ^ b := Nat.pow_le_pow_left (by omega) b

end Sparkboard.Decimal
