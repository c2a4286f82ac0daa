import Sparkboard.Decimal.Shortest
import Sparkboard.Proofs.Decimal.Digits
import Sparkboard.Proofs.Decimal.Rounding
/-!
# The shortest decimal of a float

The decimal that is found for a float rounds to the float (`shortest_roundsTo`).  A grid point is
taken only if it rounds to the float, and seventeen digits suffice: on the last grid, a neighbour of
the float is nearer than the middles (`GridLine.holds_of_fine`).
-/

namespace Sparkboard

namespace Decimal

open Binary64 (Canonical RoundsTo quartersBelow quartersBelow_le roundsTo_iff zpow_eq_div)

variable {half : HalfWay} {m n : Nat} {e g : Int}

namespace GridLine

/-- The unit of the line for a float and a grid. -/
def unit (e g : Int) : Nat := 2 ^ (e - 2).toNat * 10 ^ (-g).toNat

theorem unit_pos (e g : Int) : 0 < unit e g :=
  Nat.mul_pos (Nat.pow_pos (by omega)) (Nat.pow_pos (by omega))

theorem of_eq (m : Nat) (e g : Int) :
    GridLine.of m e g =
      { value := 4 * m * unit e g
        low := (4 * m - quartersBelow m e) * unit e g
        high := (4 * m + 2) * unit e g
        closed := m % 2 = 0
        step := 10 ^ g.toNat * 2 ^ (-(e - 2)).toNat } := rfl

theorem point_eq (n : Nat) (e g : Int) :
    (n * 10 ^ g : ℚ) =
      ((n * (10 ^ g.toNat * 2 ^ (-(e - 2)).toNat) : Nat) : ℚ) / ((4 * unit e g : Nat) : ℚ) *
        2 ^ e := by
  have hquarter : (2 : ℚ) ^ e = 4 * 2 ^ (e - 2) := by
    rw [(by norm_num : (4 : ℚ) = 2 ^ (2 : Int)), ← zpow_add₀ (by norm_num)]
    congr 1
    omega
  unfold unit
  rw [hquarter, zpow_eq_div (a := 10) (by norm_num) g, zpow_eq_div (a := 2) (by norm_num) (e - 2)]
  push_cast
  field_simp

/-- A grid point is on the line of a float if and only if it rounds to the float. -/
theorem holds_iff : (GridLine.of m e g).holds n = true ↔ RoundsTo m e (n * 10 ^ g) := by
  have hpos := unit_pos e g
  rw [point_eq n e g, roundsTo_iff (by omega), of_eq]
  have hbelow : (4 * m - quartersBelow m e) * (4 * unit e g) =
      4 * ((4 * m - quartersBelow m e) * unit e g) := by ring
  have habove : (4 * m + 2) * (4 * unit e g) = 4 * ((4 * m + 2) * unit e g) := by ring
  rw [hbelow, habove]
  unfold holds
  dsimp only
  rcases Nat.mod_two_eq_zero_or_one m with hm | hm
  · simp [hm]
  · simp [hm]
    omega

variable {line : GridLine}

theorem holds_of_between (hlow : line.low < n * line.step) (hhigh : n * line.step < line.high) :
    line.holds n = true := by
  unfold holds
  dsimp only
  split
  · simp [hlow.le, hhigh.le]
  · simp [hlow, hhigh]

/-- The upper neighbour, if the upper middle is farther than one step. -/
theorem holds_upper (hstep : 0 < line.step) (hlow : line.low ≤ line.value)
    (hhigh : line.value + line.step < line.high) :
    line.holds (line.value / line.step + 1) = true := by
  have hfloor := Nat.div_add_mod' line.value line.step
  have hrest := Nat.mod_lt line.value hstep
  refine holds_of_between ?_ ?_ <;> rw [Nat.succ_mul] <;> omega

/-- The nearer neighbour, if both middles are farther than half a step. -/
theorem holds_nearer (hstep : 0 < line.step) (hlow : 2 * line.low + line.step < 2 * line.value)
    (hhigh : 2 * line.value + line.step ≤ 2 * line.high) :
    line.holds (line.value / line.step) = true ∨
      line.holds (line.value / line.step + 1) = true := by
  have hfloor := Nat.div_add_mod' line.value line.step
  have hrest := Nat.mod_lt line.value hstep
  by_cases hnear : 2 * (line.value % line.step) ≤ line.step
  · left
    refine holds_of_between ?_ ?_ <;> omega
  · right
    refine holds_of_between ?_ ?_ <;> rw [Nat.succ_mul] <;> omega

/-- A grid that starts sixteen digits below the float's first one has a point next to the float that
rounds to it. -/
theorem holds_of_fine (hm : m < 2 ^ 53)
    (hfine : 10 ^ 16 * (GridLine.of m e g).step ≤ (GridLine.of m e g).value) :
    (GridLine.of m e g).holds ((GridLine.of m e g).value / (GridLine.of m e g).step) = true ∨
      (GridLine.of m e g).holds ((GridLine.of m e g).value / (GridLine.of m e g).step + 1) =
        true := by
  have hstep : 0 < (GridLine.of m e g).step :=
    Nat.mul_pos (Nat.pow_pos (by omega)) (Nat.pow_pos (by omega))
  have hunit := unit_pos e g
  have hvalue : (GridLine.of m e g).value = 4 * (m * unit e g) := Nat.mul_assoc ..
  have hhigh : (GridLine.of m e g).high = 4 * (m * unit e g) + 2 * unit e g := by
    rw [← hvalue]
    exact Nat.add_mul ..
  have hlow : (GridLine.of m e g).low = 4 * (m * unit e g) - quartersBelow m e * unit e g := by
    rw [← hvalue]
    exact Nat.sub_mul ..
  by_cases hpower : m = Binary64.leastNormal ∧ e ≠ Binary64.leastExponent
  · -- Below a power of two the interval is short, but the grid is finer there than half of it
    -- above.
    have hmantissa : m * unit e g = 2 ^ 52 * unit e g := by rw [hpower.1]; rfl
    rw [quartersBelow, if_pos hpower] at hlow
    exact .inr (holds_upper hstep (by omega) (by omega))
  · have hmantissa : m * unit e g ≤ (2 ^ 53 - 1) * unit e g := Nat.mul_le_mul_right _ (by omega)
    rw [quartersBelow, if_neg hpower] at hlow
    exact holds_nearer hstep (by omega) (by omega)

theorem nearest?_isSome (half : HalfWay) (h : line.holds (line.value / line.step) = true ∨
    line.holds (line.value / line.step + 1) = true) : (line.nearest? half).isSome = true := by
  unfold nearest?
  dsimp only
  rcases h with h | h <;> rw [h] <;> split <;> simp_all

theorem roundDiv_eq_or (half : HalfWay) (num den : Nat) :
    roundDiv half num den = num / den ∨ roundDiv half num den = num / den + 1 := by
  unfold roundDiv
  dsimp only
  split
  · exact .inl rfl
  split
  · exact .inr rfl
  cases half with
  | up => exact .inr rfl
  | toEven =>
    dsimp only
    split
    · exact .inl rfl
    · exact .inr rfl

theorem holds_of_nearest? (h : line.nearest? half = some n) : line.holds n = true := by
  unfold nearest? at h
  dsimp only at h
  split at h
  · cases h
  · next hfloor _ =>
    cases h
    exact hfloor
  · next hnext =>
    cases h
    exact hnext
  · next hfloor hnext =>
    cases h
    rcases roundDiv_eq_or half line.value line.step with hround | hround <;> rw [hround] <;>
      assumption

/-- Zero is too far below a positive float to round to it. -/
theorem ne_zero_of_holds (hm : m ≠ 0) (h : (GridLine.of m e g).holds n = true) : n ≠ 0 := by
  rintro rfl
  have hlow : 0 < (GridLine.of m e g).low := by
    refine Nat.mul_pos ?_ (unit_pos e g)
    have := quartersBelow_le m e
    show 0 < 4 * m - quartersBelow m e
    omega
  simp only [holds, Nat.zero_mul] at h
  split at h
  · simp at h
    omega
  · simp at h

end GridLine

/-! ## The search -/

/-- Is the decimal one that rounds to the float? -/
def Scaled.RoundsTo (d : Scaled) (m : Nat) (e : Int) : Prop :=
  Binary64.RoundsTo m e (d.digits * 10 ^ d.exponent)

/-- The grid of seventeen digits is fine enough. -/
theorem fine_of_magnitude {top : Int} (htop : (10 : ℚ) ^ top ≤ m * 2 ^ e) :
    10 ^ 16 * (GridLine.of m e (top - 16)).step ≤ (GridLine.of m e (top - 16)).value := by
  have hunit := GridLine.unit_pos e (top - 16)
  have hpoint := GridLine.point_eq (10 ^ 16) e (top - 16)
  have hpower : ((10 ^ 16 : Nat) * 10 ^ (top - 16) : ℚ) = 10 ^ top := by
    have hsplit : (10 : ℚ) ^ top = 10 ^ (16 : Int) * 10 ^ (top - 16) := by
      rw [← zpow_add₀ (by norm_num), add_sub_cancel]
    rw [hsplit]
    norm_num
  rw [hpower] at hpoint
  rw [hpoint, mul_le_mul_iff_left₀ (Binary64.two_zpow_pos e),
    div_le_iff₀ (by exact_mod_cast (by omega : 0 < 4 * GridLine.unit e (top - 16)))] at htop
  have hnat : 10 ^ 16 * (10 ^ (top - 16).toNat * 2 ^ (-(e - 2)).toNat) ≤
      m * (4 * GridLine.unit e (top - 16)) := by exact_mod_cast htop
  calc 10 ^ 16 * (GridLine.of m e (top - 16)).step
      ≤ m * (4 * GridLine.unit e (top - 16)) := hnat
    _ = 4 * m * GridLine.unit e (top - 16) := by ring

theorem search_roundsTo {top : Int} (hm : m < 2 ^ 53)
    (htop : (10 : ℚ) ^ top ≤ m * 2 ^ e) {tries count : Nat} (hcount : tries + count = 18)
    (htries : 0 < tries) : (search half m e top tries count).RoundsTo m e := by
  induction tries generalizing count with
  | zero => omega
  | succ tries ih =>
    unfold search
    dsimp only
    split
    · next n hnearest => exact GridLine.holds_iff.1 (GridLine.holds_of_nearest? hnearest)
    · next hnearest =>
      have hmore : 0 < tries := by
        by_contra hlast
        have hgrid : top + 1 - (count : Int) = top - 16 := by omega
        rw [hgrid] at hnearest
        have hsome := GridLine.nearest?_isSome half
          (GridLine.holds_of_fine hm (fine_of_magnitude htop))
        rw [hnearest] at hsome
        cases hsome
      exact ih (by omega) hmore

theorem search_digits_ne_zero (hm : m ≠ 0) (top : Int) (tries count : Nat) :
    (search half m e top tries count).digits ≠ 0 := by
  induction tries generalizing count with
  | zero => exact hm
  | succ tries ih =>
    unfold search
    dsimp only
    split
    · next hnearest => exact GridLine.ne_zero_of_holds hm (GridLine.holds_of_nearest? hnearest)
    · exact ih (count + 1)

theorem first_digit_le {num den : Nat} (hden : 0 < den) (h : den ≤ num) :
    (10 : ℚ) ^ (((digits (num / den)).length : Int) - 1) ≤ num / den := by
  have hpos := length_digits_pos (num / den)
  obtain ⟨hle, -⟩ := digits_bounds (Nat.div_pos h hden)
  rw [Nat.le_div_iff_mul_le hden] at hle
  rw [(by omega : ((digits (num / den)).length : Int) - 1 =
    ((digits (num / den)).length - 1 : Nat)),
    zpow_natCast, le_div_iff₀ (by exact_mod_cast hden)]
  exact_mod_cast hle

/-- The first digit of a fraction, worked out to some places. -/
theorem first_place_le {k places count : Nat}
    (hcount : (digits (m * Nat.pow 10 places / Nat.pow 2 (k + 1))).length = count)
    (h : 2 ^ (k + 1) ≤ m * 10 ^ places) :
    (10 : ℚ) ^ ((count : Int) - 1 - places) ≤ m * 2 ^ Int.negSucc k := by
  have hquotient := first_digit_le (Nat.two_pow_pos (k + 1)) h
  rw [← hcount, zpow_sub₀ (by norm_num), zpow_natCast, zpow_negSucc, div_le_iff₀ (by positivity),
    ← div_eq_mul_inv]
  refine hquotient.trans_eq ?_
  push_cast
  rw [mul_div_right_comm]

theorem magnitude_le (hc : Canonical m e) : (10 : ℚ) ^ magnitude m e ≤ m * 2 ^ e := by
  cases e with
  | ofNat k =>
    have hwhole := first_digit_le Nat.one_pos (Nat.mul_pos hc.pos (Nat.two_pow_pos k))
    rw [Nat.div_one, Nat.cast_one, div_one, Nat.cast_mul, Nat.cast_pow, Nat.cast_ofNat] at hwhole
    rw [Int.ofNat_eq_natCast, zpow_natCast]
    exact hwhole
  | negSucc k =>
    -- Four hundred places are more than zeros can follow the point.
    have hleast := hc.least
    rw [magnitude]
    generalize hcount : (digits _).length = count
    have hplace := first_place_le hcount ?_
    · rw [Int.sub_sub] at hplace
      exact hplace
    · refine le_trans ?_ (Nat.le_mul_of_pos_left _ hc.pos)
      exact (two_pow_lt_ten_pow (by omega)).le

theorem normalize_value (tries : Nat) (d : Scaled) :
    ((normalize tries d).digits * 10 ^ (normalize tries d).exponent : ℚ) =
      d.digits * 10 ^ d.exponent := by
  induction tries generalizing d with
  | zero => rfl
  | succ tries ih =>
    unfold normalize
    split
    · next h =>
      have hdigits : (d.digits : ℚ) = ((d.digits / 10 : Nat) : ℚ) * 10 := by
        exact_mod_cast (by omega : d.digits = d.digits / 10 * 10)
      rw [ih, hdigits, zpow_add₀ (by norm_num), zpow_one]
      ring
    · rfl

theorem normalize_digits_ne_zero {d : Scaled} (hd : d.digits ≠ 0) (tries : Nat) :
    (normalize tries d).digits ≠ 0 := by
  induction tries generalizing d with
  | zero => exact hd
  | succ tries ih =>
    unfold normalize
    split
    · exact ih (show d.digits / 10 ≠ 0 by omega)
    · exact hd

theorem shortest_digits_ne_zero (hm : m ≠ 0) : (shortest half m e).digits ≠ 0 :=
  normalize_digits_ne_zero (search_digits_ne_zero hm _ 17 1) 20

/-- **The shortest decimal of a float rounds to it.** -/
theorem shortest_roundsTo (half : HalfWay) (hc : Canonical m e) :
    (shortest half m e).RoundsTo m e := by
  have hsearch : (search half m e (magnitude m e) 17 1).RoundsTo m e :=
    search_roundsTo hc.lt (magnitude_le hc) rfl (by omega)
  unfold shortest Scaled.RoundsTo
  rw [normalize_value]
  exact hsearch

end Decimal

end Sparkboard
