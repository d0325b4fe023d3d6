import Mathlib.Algebra.Order.Field.Power
import Mathlib.Tactic.NormNum
import Mathlib.Tactic.Ring
import RestaurantOS.Core.DecimalText

/-!
# Normal forms of decimal numbers

`str(value)` and `value.normalize()`. The text of a finite decimal determines its sign, its coefficient
and its exponent. The normal form is rounded to the digits of the context and has no trailing zeros, so
numbers that the rounding leaves as they are have one normal form. A number beyond the exponents of the
context has no other form here than within them.
-/

namespace RestaurantOS

open Numerals

namespace Decimal

/-- `value.is_zero()`. Zeros have any exponent and either sign. -/
def is_zero : Decimal → Bool
  | .finite _ coefficient _ => coefficient = 0
  | .infinite _ | .nan => false

/-- `value.is_finite()`. Neither an infinity nor `NaN`. -/
def is_finite : Decimal → Bool
  | .finite .. => true
  | .infinite _ | .nan => false

/-- `str(value)`. It uses an exponent where the number is large or small enough. -/
def str : Decimal → String
  | .finite negative coefficient exponent =>
    String.ofList
      (if negative then '-' :: scientific coefficient exponent else scientific coefficient exponent)
  | .infinite negative => if negative then "-Infinity" else "Infinity"
  | .nan => "NaN"

/-- The text of a finite decimal reads as it. Its digits, its point and its exponent are written so
that reading puts them together again. -/
theorem of_text_str (unicode : Unicode) (negative : Bool) {coefficient : ℕ} {exponent : ℤ}
    (hlimits : within_limits coefficient exponent = true) :
    of_text unicode (str (.finite negative coefficient exponent)) =
      some (.finite negative coefficient exponent) := by
  obtain ⟨c, rest, hscientific, hc⟩ := scientific_head coefficient exponent
  have hread := read_numeral_scientific unicode.other_digit coefficient exponent
  have hmem := scientific_mem coefficient exponent
  unfold str
  dsimp only
  rw [hscientific] at hread hmem ⊢
  exact of_text_numeral unicode negative hc hmem hread hlimits

/-- The text of a finite decimal determines it. So two quantities with one text in a fingerprint are
one quantity. -/
theorem str_injective {negative negative' : Bool} {coefficient coefficient' : ℕ}
    {exponent exponent' : ℤ}
    (h : str (.finite negative coefficient exponent) = str (.finite negative' coefficient' exponent')) :
    negative = negative' ∧ coefficient = coefficient' ∧ exponent = exponent' := by
  obtain ⟨c, text, hhead, hc⟩ := scientific_head coefficient exponent
  obtain ⟨c', text', hhead', hc'⟩ := scientific_head coefficient' exponent'
  have hread := read_numeral_scientific (fun _ => none) coefficient exponent
  have hread' := read_numeral_scientific (fun _ => none) coefficient' exponent'
  have hsign : '-'.isDigit = false := rfl
  have htext := String.ofList_injective h
  rw [hhead, hhead'] at htext
  rw [hhead] at hread
  rw [hhead'] at hread'
  -- A numeral begins with a digit, so a minus is the sign.
  have hsame : c :: text = c' :: text' → coefficient = coefficient' ∧ exponent = exponent' :=
    fun heq => by
      rw [heq, hread'] at hread
      obtain ⟨hcoefficient, hexponent⟩ := Prod.mk.inj (Option.some.inj hread)
      exact ⟨hcoefficient.symm, hexponent.symm⟩
  cases negative with
  | true =>
    cases negative' with
    | true => exact ⟨rfl, hsame (List.cons.inj htext).2⟩
    | false => exact absurd (List.cons.inj htext).1.symm (ne_of_isDigit hc' hsign)
  | false =>
    cases negative' with
    | true => exact absurd (List.cons.inj htext).1 (ne_of_isDigit hc hsign)
    | false => exact ⟨rfl, hsame htext⟩

/-- The number of a finite decimal, with a power of ten. -/
theorem value_finite (negative : Bool) (coefficient : ℕ) (exponent : ℤ) :
    (finite negative coefficient exponent).value =
      some (if negative then -(coefficient * (10 : ℚ) ^ exponent)
        else coefficient * 10 ^ exponent) := by
  have hpower : (if 0 ≤ exponent then (coefficient : ℚ) * 10 ^ exponent.toNat
      else coefficient / 10 ^ (-exponent).toNat) = coefficient * 10 ^ exponent := by
    split_ifs with h
    · obtain ⟨n, rfl⟩ := Int.eq_ofNat_of_zero_le h
      rw [Int.toNat_natCast, zpow_natCast]
    · obtain ⟨n, hn⟩ := Int.eq_ofNat_of_zero_le (show 0 ≤ -exponent by omega)
      have hexponent : exponent = -(n : ℤ) := by omega
      rw [hn, Int.toNat_natCast, hexponent, zpow_neg, zpow_natCast, div_eq_mul_inv]
  unfold value
  dsimp only
  rw [hpower]

/-! ## Normal form -/

/-- What a column with a number of decimal places gives for a number that it holds. -/
def of_column (places : ℕ) (number : ℚ) : Decimal :=
  .finite (decide (number < 0)) (number * 10 ^ places).num.natAbs (-(places : ℤ))

/-- The coefficient of a number with so many decimal places. -/
theorem natAbs_of_places {places : ℕ} {number : ℚ} (h0 : 0 ≤ number)
    (hplaces : has_decimal_places places number) :
    ((number * 10 ^ places).num.natAbs : ℚ) = number * 10 ^ places := by
  have hnonneg : 0 ≤ (number * 10 ^ places).num := Rat.num_nonneg.mpr (by positivity)
  calc ((number * 10 ^ places).num.natAbs : ℚ) = (((number * 10 ^ places).num.natAbs : ℤ) : ℚ) := rfl
    _ = ((number * 10 ^ places).num : ℚ) := by rw [Int.natAbs_of_nonneg hnonneg]
    _ = number * 10 ^ places := (Rat.den_eq_one_iff _).mp hplaces

/-- It stands for the number. -/
theorem of_column_value {places : ℕ} {number : ℚ} (h0 : 0 ≤ number)
    (hplaces : has_decimal_places places number) : (of_column places number).value = some number := by
  have hpow : (10 : ℚ) ^ places ≠ 0 := by positivity
  have hscale : number * 10 ^ places * (10 : ℚ) ^ (-(places : ℤ)) = number := by
    rw [zpow_neg, zpow_natCast, mul_assoc, mul_inv_cancel₀ hpow, mul_one]
  unfold of_column
  rw [decide_eq_false (not_lt.mpr h0), value_finite, if_neg Bool.false_ne_true,
    natAbs_of_places h0 hplaces, hscale]

/-- It is within the limits where the number has few digits. -/
theorem of_column_limits {places : ℕ} {number : ℚ} (h0 : 0 ≤ number)
    (hfew : places ≤ 1000) (hmax : number * 10 ^ places < 10 ^ 28)
    (hplaces : has_decimal_places places number) :
    within_limits (number * 10 ^ places).num.natAbs (-(places : ℤ)) = true := by
  have hlt : (number * 10 ^ places).num.natAbs < 10 ^ 28 := by
    rw [← natAbs_of_places h0 hplaces] at hmax
    exact_mod_cast hmax
  exact within_limits_of_lt hlt (by omega) (by omega)

/-- Trailing zeros of the coefficient go into the exponent. -/
def strip_zeros (coefficient : ℕ) (exponent : ℤ) : ℕ × ℤ :=
  if 0 < coefficient ∧ coefficient % 10 = 0 then strip_zeros (coefficient / 10) (exponent + 1)
  else (coefficient, exponent)
termination_by coefficient
decreasing_by omega

/-- Rounding to the 28 digits of the context, half to even. -/
def round (coefficient : ℕ) (exponent : ℤ) : ℕ × ℤ :=
  let excess := (Nat.toDigits 10 coefficient).length - 28
  let quotient := coefficient / 10 ^ excess
  let remainder := coefficient % 10 ^ excess
  let up := 10 ^ excess < 2 * remainder ∨ (2 * remainder = 10 ^ excess ∧ quotient % 2 = 1)
  (if up then quotient + 1 else quotient, exponent + excess)

/-- `value.normalize()`. A carry of the rounding to one digit more ends in a zero, which is stripped. -/
def normalize : Decimal → Decimal
  | .finite negative coefficient exponent =>
    if coefficient = 0 then .finite negative 0 0
    else
      let (coefficient, exponent) := round coefficient exponent
      let (coefficient, exponent) := strip_zeros coefficient exponent
      .finite negative coefficient exponent
  | value => value

/-- A coefficient has no trailing zero. So no shorter coefficient with another exponent is the same
number. -/
def Stripped (coefficient : ℕ) : Prop := 0 < coefficient ∧ coefficient % 10 ≠ 0

/-- Stripping keeps the number. Every zero that is taken away is counted in the exponent. -/
theorem strip_zeros_spec {coefficient : ℕ} (h : 0 < coefficient) (exponent : ℤ) :
    Stripped (strip_zeros coefficient exponent).1 ∧
      ((strip_zeros coefficient exponent).1 : ℚ) * 10 ^ (strip_zeros coefficient exponent).2 =
        coefficient * 10 ^ exponent := by
  fun_induction strip_zeros coefficient exponent with
  | case1 coefficient exponent hzero ih =>
    obtain ⟨hstripped, hvalue⟩ := ih (by omega)
    have hcoefficient : coefficient = coefficient / 10 * 10 := by omega
    have hcast : (coefficient : ℚ) = (coefficient / 10 : ℕ) * 10 := by exact_mod_cast hcoefficient
    refine ⟨hstripped, ?_⟩
    calc _ = ((coefficient / 10 : ℕ) : ℚ) * 10 ^ (exponent + 1) := hvalue
      _ = (coefficient / 10 : ℕ) * 10 * 10 ^ exponent := by
        rw [zpow_add₀ (by norm_num), zpow_one]
        ring
      _ = coefficient * 10 ^ exponent := by rw [← hcast]
  | case2 coefficient exponent hzero => exact ⟨⟨h, fun hmod => hzero ⟨h, hmod⟩⟩, rfl⟩

/-- A number has one stripped coefficient and exponent. Neither coefficient ends in a zero, so the
one with the lower exponent cannot be a multiple of ten of the other. -/
theorem Stripped.unique {c c' : ℕ} {e e' : ℤ} (h : Stripped c) (h' : Stripped c')
    (heq : (c : ℚ) * 10 ^ e = c' * 10 ^ e') : c = c' ∧ e = e' := by
  -- For the number with the lower exponent; the other case is the same with the sides exchanged.
  have hle : ∀ {c c' : ℕ} {e e' : ℤ}, Stripped c → (c : ℚ) * 10 ^ e = c' * 10 ^ e' → e ≤ e' →
      c = c' ∧ e = e' := by
    intro c c' e e' h heq hle
    obtain ⟨n, hn⟩ := Int.eq_ofNat_of_zero_le (Int.sub_nonneg.mpr hle)
    have he' : e' = n + e := by omega
    have hmul : c = c' * 10 ^ n := by
      rw [he', zpow_add₀ (by norm_num), zpow_natCast, ← mul_assoc] at heq
      have hcancel := mul_right_cancel₀ (zpow_ne_zero e (by norm_num : (10 : ℚ) ≠ 0)) heq
      exact_mod_cast hcancel
    cases n with
    | zero => exact ⟨by simpa using hmul, by simpa using he'.symm⟩
    | succ n =>
      -- Otherwise the coefficient ends in a zero.
      refine absurd ?_ h.2
      rw [hmul, pow_succ, ← mul_assoc]
      exact Nat.mul_mod_left _ _
  rcases le_total e e' with hee | hee
  · exact hle h heq hee
  · obtain ⟨hc, he⟩ := hle h' heq.symm hee
    exact ⟨hc.symm, he.symm⟩

/-- A coefficient that a rounding divides is divided exactly. What is cut off are zeros. -/
theorem round_of_dvd {coefficient : ℕ} {exponent : ℤ}
    (h : 10 ^ ((Nat.toDigits 10 coefficient).length - 28) ∣ coefficient) :
    ((round coefficient exponent).1 : ℚ) * 10 ^ (round coefficient exponent).2 =
      coefficient * 10 ^ exponent := by
  unfold round
  generalize (Nat.toDigits 10 coefficient).length - 28 = excess at *
  obtain ⟨quotient, rfl⟩ := h
  have hpos : 0 < 10 ^ excess := Nat.pow_pos (by decide)
  dsimp only
  rw [Nat.mul_mod_right, Nat.mul_div_cancel_left _ hpos, if_neg (by omega), zpow_add₀ (by norm_num),
    zpow_natCast]
  push_cast
  ring

/-- Rounding leaves a number as it is that has at most twelve digits and three decimal places: what
exceeds the 28 digits are zeros. Those are the numbers that a column of three decimal places and
twelve digits holds. -/
theorem round_exact {coefficient m : ℕ} {exponent : ℤ} (hm : m < 10 ^ 12)
    (hvalue : (coefficient : ℚ) * 10 ^ exponent = m / 1000) :
    ((round coefficient exponent).1 : ℚ) * 10 ^ (round coefficient exponent).2 =
      coefficient * 10 ^ exponent := by
  refine round_of_dvd ?_
  rcases Nat.eq_zero_or_pos ((Nat.toDigits 10 coefficient).length - 28) with hzero | hexcess
  · rw [hzero, pow_zero]
    exact one_dvd _
  -- There is something to round off, so the coefficient is longer than 28 digits.
  have hlong : ¬ coefficient < 10 ^ 28 := fun hlt => by
    have := (Nat.length_toDigits_le_iff (by decide) (by decide)).mpr hlt
    omega
  have hscaled : (coefficient : ℚ) * 10 ^ (exponent + 3) = m := by
    rw [zpow_add₀ (by norm_num), ← mul_assoc, hvalue]
    norm_num
  -- With a coefficient that long the value needs negative powers of ten, beyond the thousandths.
  have hnegative : exponent + 3 < 0 := by
    by_contra hge
    obtain ⟨n, hn⟩ := Int.eq_ofNat_of_zero_le (not_lt.mp hge)
    rw [hn, zpow_natCast] at hscaled
    have hmul : coefficient * 10 ^ n = m := by exact_mod_cast hscaled
    have hle : coefficient ≤ m := hmul ▸ Nat.le_mul_of_pos_right _ (Nat.pow_pos (by decide))
    omega
  obtain ⟨k, hk⟩ := Int.eq_ofNat_of_zero_le (show 0 ≤ -(exponent + 3) by omega)
  have hmul : coefficient = m * 10 ^ k := by
    rw [show exponent + 3 = -(k : ℤ) by omega, zpow_neg, zpow_natCast] at hscaled
    have hpow : (10 : ℚ) ^ k ≠ 0 := pow_ne_zero _ (by norm_num)
    have hcast : (coefficient : ℚ) = m * 10 ^ k := by
      rw [← hscaled, mul_assoc, inv_mul_cancel₀ hpow, mul_one]
    exact_mod_cast hcast
  -- Twelve digits belong to the value, and the rest are zeros.
  have hlength : (Nat.toDigits 10 coefficient).length ≤ 12 + k := by
    refine (Nat.length_toDigits_le_iff (by decide) (by omega)).mpr ?_
    rw [hmul, pow_add]
    exact Nat.mul_lt_mul_of_pos_right hm (Nat.pow_pos (by decide))
  exact (pow_dvd_pow 10 (by omega)).trans (hmul ▸ dvd_mul_left _ _)

end Decimal

end RestaurantOS
