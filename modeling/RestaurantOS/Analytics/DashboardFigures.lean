import RestaurantOS.Analytics.Dashboard

/-!
# The figures of the dashboard

What `percent_change` and the average of a day come to, although they are computed in the decimal
context. Amounts with few digits have the exact percentage, rounded once (`percent_change_exact`), and so
has the average (`average_exact`). The change of the average is that of two quotients which have been
rounded to 28 digits, and is less than a hundredth off (`percent_change_close`). -/

namespace RestaurantOS.Analytics

open Fallible Tenancy Orders
open Events.Pydantic (quantize)
open DecimalContext (context context_error context_exact round_half_even_close round_half_even_error)

/-! ## Rounding -/

/-- A number with two decimal places that is nearest to `x`, the even one of two. -/
def to_cents (x : ℚ) : ℚ := round_half_even (x * 10 ^ 2) / 10 ^ 2

/-- A number that is not too large is quantized to cents. -/
theorem quantize_to_cents {x : ℚ} (h : |x| < 10 ^ 25) : quantize 2 x = some (to_cents x) := by
  have hround := abs_le.mp (round_half_even_error (x * 10 ^ 2))
  obtain ⟨hlow, hhigh⟩ := abs_lt.mp h
  norm_num at hlow hhigh hround
  have hupper : ((round_half_even (x * 10 ^ 2) : ℤ) : ℚ) < (10 ^ 28 : ℤ) := by
    norm_num
    linarith
  have hlower : ((-10 ^ 28 : ℤ) : ℚ) < (round_half_even (x * 10 ^ 2) : ℤ) := by
    norm_num
    linarith
  have hnat : (round_half_even (x * 10 ^ 2)).natAbs < 10 ^ 28 := by
    have hupper' : round_half_even (x * 10 ^ 2) < 10 ^ 28 := by exact_mod_cast hupper
    have hlower' : -10 ^ 28 < round_half_even (x * 10 ^ 2) := by exact_mod_cast hlower
    omega
  unfold quantize
  rw [if_pos hnat]
  rfl

/-- Nothing is rounded to nothing. -/
@[simp] theorem to_cents_zero : to_cents 0 = 0 := by
  unfold to_cents
  rw [zero_mul, ← Int.cast_zero, DecimalContext.round_half_even_int, Int.cast_zero, zero_div]

/-- Rounding to cents is off by at most half a cent. -/
theorem to_cents_error (x : ℚ) : |to_cents x - x| ≤ 1 / 200 := by
  obtain ⟨hlow, hhigh⟩ := abs_le.mp (round_half_even_error (x * 10 ^ 2))
  unfold to_cents
  rw [abs_le]
  constructor <;> linarith

/-- The change between two amounts in percent; there is none since zero. -/
def exact_percent_change (current previous : ℚ) : ℚ :=
  if previous = 0 then 0 else (current - previous) / previous * 100

/-! ## Percentages -/

/-- A quotient that is rounded, scaled to a percentage and rounded again is off by little. The second
rounding is one of a number that is about a hundred times as large. -/
theorem product_error (x : ℚ) :
    |context (context x * 100) - x * 100| ≤ |x| * (3 / (2 * 10 ^ 25)) := by
  have hquotient := context_error x
  have hproduct := context_error (context x * 100)
  have hsize : |context x * 100| ≤ 200 * |x| := by
    have htriangle : |context x| ≤ |context x - x| + |x| := by
      simpa using abs_add_le (context x - x) x
    rw [abs_mul, abs_of_pos (by norm_num : (0 : ℚ) < 100)]
    linarith [abs_nonneg x]
  have hparts : |context (context x * 100) - x * 100| ≤
      |context (context x * 100) - context x * 100| + |context x - x| * 100 := by
    have hscale : |context x - x| * 100 = |context x * 100 - x * 100| := by
      rw [← sub_mul, abs_mul, abs_of_pos (by norm_num : (0 : ℚ) < 100)]
    rw [hscale]
    exact abs_sub_le _ _ _
  linarith

/-- At a half of a hundredth nothing is rounded. A half has few digits, and so has the quotient. -/
theorem product_exact {x : ℚ} {m : ℤ} (hx : |x| < 10 ^ 22) (hm : x * 10 ^ 4 = m + 1 / 2) :
    context (context x * 100) = x * 100 := by
  have hpower : ∀ i : ℕ, (10 : ℚ) ^ (-(i : ℤ)) = 1 / 10 ^ i := by
    intro i
    rw [zpow_neg, zpow_natCast, one_div]
  have hxm : x = (5 * (2 * m + 1) : ℤ) * 10 ^ (-(5 : ℕ) : ℤ) := by
    rw [hpower]
    push_cast
    linarith
  have hm28 : |5 * (2 * m + 1)| < 10 ^ 28 := by
    have hcast : |((5 * (2 * m + 1) : ℤ) : ℚ)| < 10 ^ 28 := by
      have hten : ((5 * (2 * m + 1) : ℤ) : ℚ) = x * 10 ^ 5 := by
        rw [hxm, hpower]
        ring
      rw [hten, abs_mul]
      norm_num at hx ⊢
      linarith
    exact_mod_cast hcast
  have hexact : context x = x := by
    rw [hxm]
    exact context_exact hm28
  have hscaled : x * 100 = (5 * (2 * m + 1) : ℤ) * 10 ^ (-(3 : ℕ) : ℤ) := by
    rw [hxm, hpower, hpower]
    ring
  rw [hexact, hscaled]
  exact context_exact hm28

/-- The percentage of a fraction of whole numbers is rounded to hundredths as the exact one is. The
error before that is below the distance of such a fraction to the nearest half. -/
theorem round_percentage {a : ℤ} {b : ℕ} (hb : 0 < b) (ha : |a| < 10 ^ 22) :
    round_half_even (context (context (a / b) * 100) * 10 ^ 2) =
      round_half_even (((a * 10 ^ 4 : ℤ) : ℚ) / b) := by
  have hbpos : (0 : ℚ) < b := by exact_mod_cast hb
  have hb1 : (1 : ℚ) ≤ b := by exact_mod_cast hb
  set x : ℚ := a / b with hx
  have habs : |x| < 10 ^ 22 / b := by
    rw [hx, abs_div, abs_of_pos hbpos]
    exact div_lt_div_of_pos_right (by exact_mod_cast ha) hbpos
  have hscaled : x * 10 ^ 4 = ((a * 10 ^ 4 : ℤ) : ℚ) / b := by
    rw [hx]
    push_cast
    ring
  refine round_half_even_close hb ?_ fun m hm => ?_
  · have hdistance : |context (context x * 100) * 10 ^ 2 - ((a * 10 ^ 4 : ℤ) : ℚ) / b| =
        |context (context x * 100) - x * 100| * 10 ^ 2 := by
      have hfactor : context (context x * 100) * 10 ^ 2 - x * 10 ^ 4 =
          (context (context x * 100) - x * 100) * 10 ^ 2 := by ring
      rw [← hscaled, hfactor, abs_mul]
      norm_num
    have hsmall : |x| * (2 * b) < 2 * 10 ^ 22 := by
      rw [lt_div_iff₀ hbpos] at habs
      linarith
    rw [hdistance, lt_div_iff₀ (mul_pos two_pos hbpos)]
    calc |context (context x * 100) - x * 100| * 10 ^ 2 * (2 * b)
        ≤ |x| * (3 / (2 * 10 ^ 25)) * 10 ^ 2 * (2 * b) := by
          refine mul_le_mul_of_nonneg_right ?_ (mul_pos two_pos hbpos).le
          exact mul_le_mul_of_nonneg_right (product_error x) (by norm_num)
      _ = |x| * (2 * b) * (3 / (2 * 10 ^ 23)) := by ring
      _ < 1 := by linarith
  · rw [product_exact (habs.trans_le (div_le_self (by norm_num) hb1)) (hscaled.trans hm), ← hscaled]
    ring

/-- The percentage of a change is rounded once, as if it were computed exactly, where the amounts
are multiples of one power of ten and have at most 22 digits. Every step of the code rounds to 28
digits. The errors of the quotient and the product are too small to move the last rounding, except
at a half, where neither of them rounds at all. -/
theorem percent_change_exact {c p : ℤ} (k : ℤ) (hc : 0 ≤ c) (hc' : c < 10 ^ 22) (hp : 0 ≤ p)
    (hp' : p < 10 ^ 22) :
    percent_change (c * 10 ^ k) (p * 10 ^ k) =
      some (to_cents (exact_percent_change (c * 10 ^ k) (p * 10 ^ k))) := by
  have hk : (10 : ℚ) ^ k ≠ 0 := zpow_ne_zero _ (by norm_num)
  unfold percent_change exact_percent_change
  -- Without an amount to compare with the code answers 0.
  by_cases hzero : p = 0
  · have hamount : (p * 10 ^ k : ℚ) = 0 := by rw [hzero, Int.cast_zero, zero_mul]
    rw [if_pos hamount, if_pos hamount, to_cents_zero]
  have hamount : (p * 10 ^ k : ℚ) ≠ 0 := mul_ne_zero (by exact_mod_cast hzero) hk
  rw [if_neg hamount, if_neg hamount]
  obtain ⟨b, rfl⟩ := Int.eq_ofNat_of_zero_le hp
  have hb : 0 < b := by omega
  -- The difference is exact.
  have hdiff : (c * 10 ^ k - (b : ℤ) * 10 ^ k : ℚ) = (c - b : ℤ) * 10 ^ k := by
    push_cast
    ring
  have hdigits : |c - (b : ℤ)| < 10 ^ 22 := by
    rw [abs_lt]
    omega
  rw [hdiff, context_exact (hdigits.trans (by norm_num)), Int.cast_natCast,
    mul_div_mul_right _ _ hk]
  -- From here on the percentage is a fraction of whole numbers.
  generalize ha : c - (b : ℤ) = a at hdigits ⊢
  have hrounded := round_percentage hb hdigits
  -- The rounded percentage is small enough to be quantized.
  have hbound : |context (context ((a : ℚ) / b) * 100)| < 10 ^ 25 := by
    have hquotient : |(a : ℚ) / b| < 10 ^ 22 := by
      rw [abs_div, Nat.abs_cast, div_lt_iff₀ (by exact_mod_cast hb)]
      have hone : (1 : ℚ) ≤ b := by exact_mod_cast hb
      have hcast : |(a : ℚ)| < 10 ^ 22 := by exact_mod_cast hdigits
      linarith
    have herror := product_error ((a : ℚ) / b)
    have htriangle := abs_sub_abs_le_abs_sub (context (context ((a : ℚ) / b) * 100)) (a / b * 100)
    have hscale : |(a : ℚ) / b * 100| = |(a : ℚ) / b| * 100 := by
      rw [abs_mul, abs_of_pos (by norm_num : (0 : ℚ) < 100)]
    linarith
  rw [quantize_to_cents hbound]
  unfold to_cents
  rw [hrounded]
  congr 3
  push_cast
  ring_nf

/-- A chain of four roundings stays close to the exact percentage, where the ratio is not too large. -/
theorem percentage_close {x y z q m : ℚ} (hx : 0 ≤ x) (hlarge : x ≤ 10 ^ 20)
    (hy : |y - x| ≤ x * (4 / (2 * 10 ^ 27))) (hz : |z - (y - 1)| ≤ |y - 1| / (2 * 10 ^ 27))
    (hq : |q - z| ≤ |z| / (2 * 10 ^ 27)) (hm : |m - q * 100| ≤ |q * 100| / (2 * 10 ^ 27)) :
    |m - (x - 1) * 100| < 1 / 1000 := by
  have hone : |y - 1| ≤ 2 * x + 1 := by
    obtain ⟨hlow, hhigh⟩ := abs_le.mp hy
    rw [abs_le]
    constructor <;> linarith
  have hsize : |z| ≤ 2 * (2 * x + 1) := by
    have htriangle := abs_sub_abs_le_abs_sub z (y - 1)
    linarith
  have hsize' : |q| ≤ 4 * (2 * x + 1) := by
    have htriangle := abs_sub_abs_le_abs_sub q z
    linarith
  rw [abs_mul, abs_of_pos (by norm_num : (0 : ℚ) < 100)] at hm
  have hsum : m - (x - 1) * 100 =
      (m - q * 100) + (q - z) * 100 + (z - (y - 1)) * 100 + (y - x) * 100 := by ring
  have hparts : |m - (x - 1) * 100| ≤
      |m - q * 100| + |q - z| * 100 + |z - (y - 1)| * 100 + |y - x| * 100 := by
    have hscale : ∀ e : ℚ, |e * 100| = |e| * 100 := fun e => by
      rw [abs_mul, abs_of_pos (by norm_num : (0 : ℚ) < 100)]
    rw [hsum, ← hscale, ← hscale, ← hscale]
    refine (abs_add_le _ _).trans (add_le_add_left ?_ _)
    exact (abs_add_le _ _).trans (add_le_add_left (abs_add_le _ _) _)
  linarith

/-- An amount that has been rounded is at least half of what it was. -/
theorem le_two_mul_of_rounded {p p' : ℚ} (hp : 0 ≤ p) (h : |p' - p| ≤ p / (2 * 10 ^ 27)) :
    p ≤ 2 * p' := by
  obtain ⟨hlow, -⟩ := abs_le.mp h
  linarith

/-- Rounding two amounts moves their ratio by a relative error. -/
theorem ratio_error {a p a' p' : ℚ} (ha : 0 ≤ a) (hp : 0 < p) (ha' : |a' - a| ≤ a / (2 * 10 ^ 27))
    (hp' : |p' - p| ≤ p / (2 * 10 ^ 27)) : |a' / p' - a / p| ≤ a / p * (4 / (2 * 10 ^ 27)) := by
  have hhalf := le_two_mul_of_rounded hp.le hp'
  have hpos' : 0 < p' := by linarith
  have hcross : a' / p' - a / p = ((a' - a) * p - a * (p' - p)) / (p' * p) := by
    field_simp
    ring
  have hnumerator : |(a' - a) * p - a * (p' - p)| ≤ 2 * (a * p / (2 * 10 ^ 27)) := by
    calc |(a' - a) * p - a * (p' - p)| ≤ |(a' - a) * p| + |a * (p' - p)| := abs_sub _ _
      _ = |a' - a| * p + a * |p' - p| := by
          rw [abs_mul, abs_mul, abs_of_nonneg ha, abs_of_nonneg hp.le]
      _ ≤ a / (2 * 10 ^ 27) * p + a * (p / (2 * 10 ^ 27)) :=
          add_le_add (mul_le_mul_of_nonneg_right ha' hp.le) (mul_le_mul_of_nonneg_left hp' ha)
      _ = 2 * (a * p / (2 * 10 ^ 27)) := by ring
  have hcancel : a / p * (4 / (2 * 10 ^ 27)) * (p' * p) = 4 * (a * p') / (2 * 10 ^ 27) := by
    field_simp
  have hprod : a * p ≤ a * (2 * p') := mul_le_mul_of_nonneg_left hhalf ha
  rw [hcross, abs_div, abs_of_pos (mul_pos hpos' hp), div_le_iff₀ (mul_pos hpos' hp), hcancel]
  linarith

/-- The percentage of a change between two amounts that have been rounded to 28 digits is off by
less than a hundredth. The bound on the ratio is what keeps the relative errors of the three
roundings below the absolute one. -/
theorem percent_change_close {a p : ℚ} (ha : 0 ≤ a) (hp : 0 ≤ p) (hratio : 0 < p → a ≤ p * 10 ^ 20) :
    ∃ change, percent_change (context a) (context p) = some change ∧
      |change - exact_percent_change a p| < 1 / 100 := by
  -- Without an amount to compare with both percentages are 0.
  rcases hp.eq_or_lt with rfl | hpos
  · have hzero : context 0 = 0 := by simpa using context_exact (m := 0) (k := 0) (by norm_num)
    refine ⟨0, ?_, ?_⟩
    · unfold percent_change
      rw [hzero, if_pos rfl]
    · unfold exact_percent_change
      rw [if_pos rfl, sub_zero, abs_zero]
      norm_num
  have hlimit := hratio hpos
  have haerror := context_error a
  have hperror := context_error p
  rw [abs_of_nonneg ha] at haerror
  rw [abs_of_nonneg hp] at hperror
  generalize hp' : context p = p' at hperror ⊢
  generalize ha' : context a = a' at haerror ⊢
  have hhalf := le_two_mul_of_rounded hp hperror
  have hpos' : 0 < p' := by linarith
  have hdifference := context_error (a' - p')
  generalize hd : context (a' - p') = d at hdifference
  -- The ratios before and after the rounding.
  have hx : 0 ≤ a / p := div_nonneg ha hp
  have hlarge : a / p ≤ 10 ^ 20 := by
    rw [div_le_iff₀ hpos]
    linarith
  have hy := ratio_error ha hpos haerror hperror
  -- The difference is rounded once more before it is divided.
  have hz : |d / p' - (a' / p' - 1)| ≤ |a' / p' - 1| / (2 * 10 ^ 27) := by
    have hone : a' / p' - 1 = (a' - p') / p' := by
      rw [sub_div, div_self hpos'.ne']
    rw [hone, ← sub_div, abs_div, abs_div, abs_of_pos hpos', div_right_comm]
    exact div_le_div_of_nonneg_right hdifference hpos'.le
  have hquotient := context_error (d / p')
  generalize hq : context (d / p') = q at hquotient
  have hproduct := context_error (q * 100)
  generalize hm : context (q * 100) = m at hproduct
  have hclose := percentage_close hx hlarge hy hz hquotient hproduct
  have hexact : exact_percent_change a p = (a / p - 1) * 100 := by
    unfold exact_percent_change
    rw [if_neg hpos.ne', sub_div, div_self hpos.ne']
  have hbound : |m| < 10 ^ 25 := by
    obtain ⟨hlow, hhigh⟩ := abs_lt.mp hclose
    rw [abs_lt]
    constructor <;> linarith
  -- What remains is the error of the last rounding to hundredths.
  refine ⟨to_cents m, ?_, ?_⟩
  · unfold percent_change
    rw [if_neg hpos'.ne', hd, hq, hm, quantize_to_cents hbound]
  · have hround := to_cents_error m
    rw [hexact]
    have htriangle := abs_sub_le (to_cents m) m ((a / p - 1) * 100)
    linarith

/-! ## Averages -/

/-- The average of a day is rounded once, where the sum is in cents and has at most 26 digits. The
division of the code rounds to 28 digits, which does not move the rounding to cents. -/
theorem average_exact {c : ℤ} {n : ℕ} (hc : 0 ≤ c) (hc' : c < 10 ^ 26) (hn : 0 < n) :
    quantize 2 (context (c / 10 ^ 2 / n)) = some (to_cents (c / 10 ^ 2 / n)) := by
  have hpos : (0 : ℚ) < n := by exact_mod_cast hn
  have hone : (1 : ℚ) ≤ n := by exact_mod_cast hn
  have hnonneg : (0 : ℚ) ≤ c := by exact_mod_cast hc
  have hlt : (c : ℚ) < 10 ^ 26 := by exact_mod_cast hc'
  set q : ℚ := c / 10 ^ 2 / n with hq
  have hscaled : q * 10 ^ 2 = c / n := by
    rw [hq]
    ring
  have hqnonneg : 0 ≤ q := div_nonneg (div_nonneg hnonneg (by norm_num)) hpos.le
  have hqlt : q * n < 10 ^ 24 := by
    have hmul : q * n = c / 10 ^ 2 := div_mul_cancel₀ _ hpos.ne'
    rw [hmul, div_lt_iff₀ (by norm_num)]
    linarith
  -- There is at least one order, so the average is at most the sum.
  have hqle : q ≤ q * n := le_mul_of_one_le_right hqnonneg hone
  have herror := context_error q
  rw [abs_of_nonneg hqnonneg] at herror
  have hrounded : round_half_even (context q * 10 ^ 2) = round_half_even ((c : ℚ) / n) := by
    refine round_half_even_close hn ?_ fun m hm => ?_
    · -- The error of the division is below the distance to the nearest half.
      have hdistance : |context q * 10 ^ 2 - (c : ℚ) / n| = |context q - q| * 10 ^ 2 := by
        rw [← hscaled, ← sub_mul, abs_mul]
        norm_num
      rw [hdistance, lt_div_iff₀ (mul_pos two_pos hpos)]
      calc |context q - q| * 10 ^ 2 * (2 * n) ≤ q / (2 * 10 ^ 27) * 10 ^ 2 * (2 * n) := by
            refine mul_le_mul_of_nonneg_right ?_ (mul_pos two_pos hpos).le
            exact mul_le_mul_of_nonneg_right herror (by norm_num)
        _ = q * n * (1 / 10 ^ 25) := by ring
        _ < 1 := by linarith
    · -- A half has few digits.
      have hhalf : q = (5 * (2 * m + 1) : ℤ) * 10 ^ (-3 : ℤ) := by
        rw [hm] at hscaled
        push_cast
        norm_num
        linarith
      have hdigits : |5 * (2 * m + 1)| < 10 ^ 28 := by
        have hupper : ((5 * (2 * m + 1) : ℤ) : ℚ) < (10 ^ 28 : ℤ) := by
          norm_num at hhalf ⊢
          linarith
        have hlower : ((0 : ℤ) : ℚ) ≤ ((5 * (2 * m + 1) : ℤ) : ℚ) := by
          norm_num at hhalf ⊢
          linarith
        rw [abs_of_nonneg (by exact_mod_cast hlower)]
        exact_mod_cast hupper
      rw [hhalf, context_exact hdigits, ← hhalf, hscaled]
  -- The average is small enough to be quantized.
  have hbound : |context q| < 10 ^ 25 := by
    have htriangle := abs_sub_abs_le_abs_sub (context q) q
    rw [abs_of_nonneg hqnonneg] at htriangle
    linarith
  rw [quantize_to_cents hbound]
  unfold to_cents
  rw [hrounded, hscaled]

end RestaurantOS.Analytics
