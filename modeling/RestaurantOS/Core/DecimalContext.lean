import Mathlib.Data.Int.Log
import RestaurantOS.Core.Time

/-!
# Arithmetic in the decimal context

The operations of `decimal` in the default context: the exact result of an operation is rounded to 28
significant digits, half to even. A number is the rational that it stands for.

A result that 28 digits can hold is exact (`context_exact`), any other is off by at most a part in
`2 * 10 ^ 27` (`context_error`). Rounding first to 28 digits and then to an integer is rounding once
where the exact result is a fraction that stays clear of the halves (`round_half_even_close`).
-/

namespace RestaurantOS.DecimalContext

/-! ## Rounding to integers -/

/-- Rounding is off by at most a half. -/
theorem round_half_even_error (x : ℚ) : |round_half_even x - x| ≤ 1 / 2 := by
  have hfloor := Int.floor_le x
  have hlt := Int.lt_floor_add_one x
  unfold round_half_even
  split_ifs with hlow hhigh <;> push_cast <;> rw [abs_le] <;> constructor <;> linarith

/-- An integer that is nearer than a half is the rounded one. -/
theorem round_half_even_eq {x : ℚ} {n : ℤ} (h : |x - n| < 1 / 2) : round_half_even x = n := by
  have hround := abs_le.mp (round_half_even_error x)
  have hn := abs_lt.mp h
  have hlow : ((round_half_even x : ℤ) : ℚ) < n + 1 := by linarith
  have hhigh : (n : ℚ) < round_half_even x + 1 := by linarith
  have hlow' : round_half_even x < n + 1 := by exact_mod_cast hlow
  have hhigh' : n < round_half_even x + 1 := by exact_mod_cast hhigh
  omega

/-- An integer is rounded to itself. -/
theorem round_half_even_int (n : ℤ) : round_half_even n = n :=
  round_half_even_eq (by rw [sub_self, abs_zero]; norm_num)

/-- A number close to a fraction is rounded as the fraction is: where the fraction is no half, being
close is to be nearer than half of a part of the denominator. A half is the one case where being
close is not enough, for the nearest integer changes there. -/
theorem round_half_even_close {a : ℤ} {b : ℕ} (hb : 0 < b) {y : ℚ}
    (hclose : |y - a / b| < 1 / (2 * b)) (hhalf : ∀ m : ℤ, (a : ℚ) / b = m + 1 / 2 → y = a / b) :
    round_half_even y = round_half_even (a / b) := by
  have hbpos : (0 : ℚ) < b := by exact_mod_cast hb
  set q : ℚ := a / b with hq
  set n := round_half_even q with hn
  rcases (round_half_even_error q).lt_or_eq with hlt | heq
  · -- The distance of the fraction from `n` is a multiple of a part of the denominator.
    have hparts : |q - n| * (2 * b) = |2 * (a : ℚ) - 2 * n * b| := by
      have hmul : q * b = a := div_mul_cancel₀ _ hbpos.ne'
      calc |q - n| * (2 * b) = |q - n| * |2 * (b : ℚ)| := by
            rw [abs_of_pos (mul_pos two_pos hbpos)]
        _ = |(q - n) * (2 * b)| := (abs_mul _ _).symm
        _ = |2 * (a : ℚ) - 2 * n * b| := by
            rw [← hmul]
            congr 1
            ring
    -- It is less than a half, and the next multiple below a half is a whole part of the denominator
    -- less.
    have hint : |2 * a - 2 * n * (b : ℤ)| + 1 ≤ b := by
      have hless : |q - n| * (2 * b) < b := by
        rw [abs_sub_comm] at hlt
        calc |q - n| * (2 * b) < 1 / 2 * (2 * b) := by
              exact mul_lt_mul_of_pos_right hlt (mul_pos two_pos hbpos)
          _ = b := by ring
      rw [hparts] at hless
      exact_mod_cast hless
    have hfar : |q - n| ≤ 1 / 2 - 1 / (2 * b) := by
      have hcast : |(2 * a - 2 * n * b : ℚ)| + 1 ≤ b := by exact_mod_cast hint
      rw [← hparts] at hcast
      have hhalf' : 1 / 2 - 1 / (2 * (b : ℚ)) = (b - 1) / (2 * b) := by
        field_simp
      rw [hhalf', le_div_iff₀ (mul_pos two_pos hbpos)]
      linarith
    -- So the close number is on the same side of the half.
    refine round_half_even_eq ?_
    calc |y - n| ≤ |y - q| + |q - n| := abs_sub_le y q n
      _ < 1 / (2 * b) + (1 / 2 - 1 / (2 * b)) := add_lt_add_of_lt_of_le hclose hfar
      _ = 1 / 2 := by ring
  · -- The fraction is a half.
    have hy : y = q := by
      rcases abs_eq (by norm_num : (0 : ℚ) ≤ 1 / 2) |>.mp heq with h | h
      · refine hhalf (n - 1) ?_
        push_cast
        linarith
      · refine hhalf n ?_
        linarith
    rw [hy]

/-! ## Rounding to 28 digits -/

/-- The exponent of the last of the 28 digits of a number. -/
def last_exponent (q : ℚ) : ℤ := Int.log 10 |q| - 27

/-- The result of an operation whose exact result is `q`. -/
def context (q : ℚ) : ℚ := round_half_even (q / 10 ^ last_exponent q) * 10 ^ last_exponent q

/-- A result is off by at most a part in `2 * 10 ^ 27`. It is the relative error of a context with
28 digits: half a unit in the last place. -/
theorem context_error (q : ℚ) : |context q - q| ≤ |q| / (2 * 10 ^ 27) := by
  have hpos : (0 : ℚ) < 10 ^ last_exponent q := zpow_pos (by norm_num) _
  have hround := round_half_even_error (q / 10 ^ last_exponent q)
  have hdiff : context q - q =
      (round_half_even (q / 10 ^ last_exponent q) - q / 10 ^ last_exponent q) *
        10 ^ last_exponent q := by
    unfold context
    rw [sub_mul, div_mul_cancel₀ _ hpos.ne']
  by_cases hq : q = 0
  · subst hq
    rw [hdiff, zero_div]
    have hzero := round_half_even_int 0
    rw [Int.cast_zero] at hzero
    rw [hzero]
    norm_num
  · have hlog : ((10 : ℕ) : ℚ) ^ Int.log 10 |q| ≤ |q| :=
      Int.zpow_log_le_self (by norm_num) (abs_pos.mpr hq)
    -- The last place is 27 places behind the first.
    have hpower : (10 : ℚ) ^ last_exponent q * 10 ^ 27 ≤ |q| := by
      unfold last_exponent
      rw [← zpow_natCast, ← zpow_add₀ (by norm_num)]
      simpa using hlog
    rw [hdiff, abs_mul, abs_of_pos hpos]
    calc |round_half_even (q / 10 ^ last_exponent q) - q / 10 ^ last_exponent q| *
          10 ^ last_exponent q
        ≤ 1 / 2 * 10 ^ last_exponent q := mul_le_mul_of_nonneg_right hround hpos.le
      _ ≤ |q| / (2 * 10 ^ 27) := by
          rw [le_div_iff₀ (by norm_num)]
          linarith

/-- A number of 28 digits is its own result. So results that are exact, as sums of amounts are, are
not touched by the context. -/
theorem context_exact {m k : ℤ} (hm : |m| < 10 ^ 28) : context (m * 10 ^ k) = m * 10 ^ k := by
  set q : ℚ := m * 10 ^ k with hq
  have hpos : (0 : ℚ) < 10 ^ last_exponent q := zpow_pos (by norm_num) _
  -- The last place of the context is not above the last place of the number.
  have hle : m ≠ 0 → last_exponent q ≤ k := by
    intro hne
    have habs : |q| < ((10 : ℕ) : ℚ) ^ (k + 28) := by
      have hcast : |(m : ℚ)| < 10 ^ 28 := by exact_mod_cast hm
      rw [hq, abs_mul, abs_of_pos (zpow_pos (by norm_num : (0 : ℚ) < 10) k), add_comm,
        zpow_add₀ (by norm_num)]
      exact mul_lt_mul_of_pos_right (by exact_mod_cast hcast) (zpow_pos (by norm_num) k)
    have hqpos : 0 < |q| := abs_pos.mpr (mul_ne_zero (by exact_mod_cast hne)
      (zpow_ne_zero _ (by norm_num)))
    have hlog := (Int.lt_zpow_iff_log_lt (by norm_num) hqpos).mp habs
    unfold last_exponent
    omega
  -- Divided by the last digit's power it is an integer.
  obtain ⟨n, hn⟩ : ∃ n : ℤ, q / 10 ^ last_exponent q = n := by
    by_cases hzero : m = 0
    · refine ⟨0, ?_⟩
      rw [hq, hzero, Int.cast_zero, zero_mul, zero_div]
    · have hdigits : last_exponent q + (k - last_exponent q).toNat = k := by
        have := hle hzero
        omega
      refine ⟨m * 10 ^ (k - last_exponent q).toNat, ?_⟩
      rw [div_eq_iff hpos.ne', hq]
      push_cast
      rw [mul_assoc, ← zpow_natCast, ← zpow_add₀ (by norm_num), add_comm, ← hq, hdigits]
  unfold context
  rw [hn, round_half_even_int, ← hn, div_mul_cancel₀ _ hpos.ne']

end RestaurantOS.DecimalContext
