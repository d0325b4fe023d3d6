import Mathlib.Tactic.FieldSimp
import RestaurantOS.Events.Validators

/-!
# The numbers of a contract

What the fields of money and quantities accept. A number within its bounds has at most twelve digits
after it is quantized, so the check of its decimal places never raises, and it accepts exactly the
numbers with at most so many places (`bounded_value_eq`). A number that is written in positional
notation is accepted again (`bounded_string_format_f`).
-/

namespace RestaurantOS.Events.Pydantic

open Validation

/-- Rounding goes at most one beyond the integer below. -/
theorem round_half_even_bounds (x : ℚ) : ⌊x⌋ ≤ round_half_even x ∧ round_half_even x ≤ ⌊x⌋ + 1 := by
  unfold round_half_even
  split_ifs <;> omega

/-- An integer is rounded to itself. -/
theorem round_half_even_intCast (n : ℤ) : round_half_even (n : ℚ) = n := by
  unfold round_half_even
  rw [Int.floor_intCast, sub_self, if_pos (by norm_num)]

/-- A number of at most 27 digits is quantized to the nearest number with so many places. -/
theorem quantize_eq {places : ℕ} {number : ℚ} (h0 : 0 ≤ number)
    (hmax : number * 10 ^ places < 10 ^ 27) :
    quantize places number = some ((round_half_even (number * 10 ^ places) : ℚ) / 10 ^ places) := by
  obtain ⟨hlow, hhigh⟩ := round_half_even_bounds (number * 10 ^ places)
  have hfloor0 : 0 ≤ ⌊number * 10 ^ places⌋ := Int.floor_nonneg.mpr (by positivity)
  have hfloor : ⌊number * 10 ^ places⌋ < 10 ^ 27 := by
    rw [Int.floor_lt]
    exact_mod_cast hmax
  unfold quantize
  rw [if_pos (by omega)]

/-- A number is quantized to itself exactly if it has at most so many places. -/
theorem eq_quantized_iff {places : ℕ} {number : ℚ} :
    number = (round_half_even (number * 10 ^ places) : ℚ) / 10 ^ places ↔
      has_decimal_places places number := by
  have hpow : (10 : ℚ) ^ places ≠ 0 := by positivity
  rw [eq_div_iff hpow]
  unfold has_decimal_places
  constructor
  · intro h
    rw [h]
    exact Rat.den_intCast _
  · intro h
    obtain ⟨n, hn⟩ : ∃ n : ℤ, number * 10 ^ places = n := ⟨_, (Rat.den_eq_one_iff _).mp h |>.symm⟩
    rw [hn, round_half_even_intCast]

/-- The check of a finite number accepts it within the bounds and with so many places, and never
raises. -/
theorem bounded_value_eq {maximum : ℚ} {places : ℕ} (hmax : maximum * 10 ^ places < 10 ^ 27)
    {value : Decimal} {number : ℚ} (hnumber : value.value = some number) :
    bounded_value maximum places value =
      if 0 ≤ number ∧ number ≤ maximum ∧ has_decimal_places places number then .valid value
      else .validation_error := by
  unfold bounded_value
  rw [hnumber]
  dsimp only
  by_cases hbounds : number < 0 ∨ maximum < number
  · -- A number outside the bounds is refused before it is quantized.
    rw [if_pos hbounds, if_neg]
    rintro ⟨h0, hle, -⟩
    rcases hbounds with h | h
    · exact absurd h0 (not_le.mpr h)
    · exact absurd hle (not_le.mpr h)
  · -- Within the bounds quantizing does not raise, and it keeps the number exactly if the places
    -- suffice.
    obtain ⟨h0, hle⟩ := not_or.mp hbounds
    rw [not_lt] at h0 hle
    have hlt : number * 10 ^ places < 10 ^ 27 :=
      lt_of_le_of_lt (mul_le_mul_of_nonneg_right hle (by positivity)) hmax
    rw [if_neg hbounds, quantize_eq h0 hlt]
    simp only [check, eq_quantized_iff, h0, hle, true_and]

/-- A field of money or of a quantity: text or number, parsed, bounded and not negative. -/
theorem bounded_string_eq (py : Pydantic) {maximum : ℚ} {places : ℕ}
    (hmax : maximum * 10 ^ places < 10 ^ 27) {value : Value} {parsed : Decimal} {number : ℚ}
    (hparsed : py.decimal_from_lossless_value value = .valid parsed)
    (hnumber : parsed.value = some number) :
    ((py.decimal_from_lossless_value value).after (bounded_value maximum places)).after ge_zero =
      if 0 ≤ number ∧ number ≤ maximum ∧ has_decimal_places places number then .valid parsed
      else .validation_error := by
  rw [hparsed, valid_after, bounded_value_eq hmax hnumber]
  split_ifs with h
  · rw [valid_after, ge_zero, check, if_pos]
    intro n hn
    rw [hnumber] at hn
    exact Option.some.inj hn ▸ h.1
  · rfl

/-- What parsing a number gives: a finite number within the limits, or an error. -/
theorem decimal_cases (py : Pydantic) (value : Value) :
    py.decimal_from_lossless_value value = .validation_error ∨
      ∃ parsed number, py.decimal_from_lossless_value value = .valid parsed ∧
        parsed.value = some number ∧ parsed.representable = true := by
  -- Whatever has been parsed, infinities and NaN are refused.
  have hfinite : ∀ parsed : Decimal, finite parsed = .validation_error ∨
      ∃ number, finite parsed = .valid parsed ∧ parsed.value = some number := by
    intro parsed
    unfold finite check
    split_ifs with h
    · exact Or.inr ⟨parsed.value.get h, rfl, (Option.some_get h).symm⟩
    · exact Or.inl rfl
  unfold decimal_from_lossless_value
  split
  · rename_i parsed
    rcases hfinite parsed.1 with h | ⟨number, h, hnumber⟩
    · exact Or.inl h
    · exact Or.inr ⟨parsed.1, number, h, hnumber, parsed.2⟩
  · rename_i text
    cases hparse : Decimal.of_text py.unicode text with
    | none => exact Or.inl rfl
    | some parsed =>
      rcases hfinite parsed with h | ⟨number, h, hnumber⟩
      · exact Or.inl h
      · exact Or.inr ⟨parsed, number, h, hnumber, Decimal.of_text_representable py.unicode hparse⟩
  · exact Or.inl rfl

/-- A field of money or of a quantity never raises. -/
theorem bounded_string_ne_raised (py : Pydantic) {maximum : ℚ} {places : ℕ}
    (hmax : maximum * 10 ^ places < 10 ^ 27) (value : Value) :
    ((py.decimal_from_lossless_value value).after (bounded_value maximum places)).after ge_zero ≠
      .raised := by
  rcases decimal_cases py value with herror | ⟨parsed, number, hparsed, hnumber, -⟩
  · rw [herror]
    exact nofun
  · rw [bounded_string_eq py hmax hparsed hnumber]
    split_ifs
    · exact nofun
    · exact nofun

/-- An amount that is not valid is a validation error, never another exception. -/
@[simp] theorem money_string_eq_raised (py : Pydantic) (value : Value) :
    py.money_string value = .raised ↔ False :=
  iff_false_intro (bounded_string_ne_raised py (by norm_num) value)

/-- A quantity that is not valid is a validation error, never another exception. -/
@[simp] theorem quantity_string_eq_raised (py : Pydantic) (value : Value) :
    py.quantity_string value = .raised ↔ False :=
  iff_false_intro (bounded_string_ne_raised py (by norm_num) value)

/-! ## Numbers that are written and read again -/

/-- A `Decimal` within bounds and with so many places. -/
def bounded (maximum : ℚ) (places : ℕ) (value : Decimal) : Prop :=
  value.representable = true ∧ ∃ number, value.value = some number ∧ 0 ≤ number ∧ number ≤ maximum ∧
    has_decimal_places places number

/-- A bounded number is within the limits in positional notation too: without its positive exponent it
has few digits. -/
theorem bounded_fixed {maximum : ℚ} {places : ℕ} (hmax : maximum * 10 ^ places < 10 ^ 27)
    {value : Decimal} (h : bounded maximum places value) : bounded maximum places value.fixed := by
  obtain ⟨hlimits, number, hnumber, h0, hle, hplaces⟩ := h
  refine ⟨?_, number, by rw [Decimal.fixed_value, hnumber], h0, hle, hplaces⟩
  cases value with
  | infinite => cases hnumber
  | nan => cases hnumber
  | finite negative coefficient exponent =>
    -- A positive exponent is written out into the coefficient, which then has at most 28 digits.
    by_cases hexponent : 0 ≤ exponent
    · have hone : (1 : ℚ) ≤ 10 ^ places := one_le_pow₀ (by norm_num)
      have hmaximum : maximum < 10 ^ 27 := by
        have hscaled := mul_le_mul_of_nonneg_left hone (h0.trans hle)
        rw [mul_one] at hscaled
        exact hscaled.trans_lt hmax
      -- The coefficient that is written out is the number itself, up to its sign.
      have hmagnitude : ((coefficient * 10 ^ exponent.toNat : ℕ) : ℚ) = |number| := by
        have hvalue := Option.some.inj hnumber
        rw [if_pos hexponent] at hvalue
        rw [← hvalue]
        have hnonneg : (0 : ℚ) ≤ coefficient * 10 ^ exponent.toNat := by positivity
        cases negative with
        | false => simp [abs_of_nonneg hnonneg]
        | true => simp [abs_of_nonneg hnonneg]
      have hlt : ((coefficient * 10 ^ exponent.toNat : ℕ) : ℚ) < 10 ^ 28 := by
        rw [hmagnitude, abs_of_nonneg h0]
        calc number ≤ maximum := hle
          _ < 10 ^ 27 := hmaximum
          _ < 10 ^ 28 := by norm_num
      have hfew : coefficient * 10 ^ exponent.toNat < 10 ^ 28 := by exact_mod_cast hlt
      simp only [Decimal.fixed, if_pos hexponent]
      exact Decimal.within_limits_of_lt hfew (by norm_num) le_rfl
    · -- An exponent that is not positive stays as it is.
      simp only [Decimal.fixed, if_neg hexponent]
      exact hlimits

/-- A bounded number in positional notation is accepted as the number without a positive exponent. -/
theorem bounded_string_format_f (py : Pydantic) {maximum : ℚ} {places : ℕ}
    (hmax : maximum * 10 ^ places < 10 ^ 27) {value : Decimal} (h : bounded maximum places value) :
    ((py.decimal_from_lossless_value (.str value.format_f)).after
      (bounded_value maximum places)).after ge_zero = .valid value.fixed := by
  obtain ⟨hlimits, number, hfixed, hbounds⟩ := bounded_fixed hmax h
  have hparsed : py.decimal_from_lossless_value (.str value.format_f) = .valid value.fixed := by
    cases value with
    | finite negative coefficient exponent =>
      unfold decimal_from_lossless_value
      dsimp only
      rw [Decimal.of_text_format_f py.unicode hlimits, of_option, valid_after, finite, check, hfixed,
        Option.isSome_some, if_pos rfl]
    | infinite => cases hfixed
    | nan => cases hfixed
  rw [bounded_string_eq py hmax hparsed hfixed, if_pos hbounds]

/-- What a field of money or of a quantity accepts is bounded. -/
theorem bounded_of_string (py : Pydantic) {maximum : ℚ} {places : ℕ}
    (hmax : maximum * 10 ^ places < 10 ^ 27) {value : Value} {number : Decimal}
    (h : ((py.decimal_from_lossless_value value).after (bounded_value maximum places)).after ge_zero =
      .valid number) : bounded maximum places number := by
  rcases decimal_cases py value with herror | ⟨parsed, n, hparsed, hn, hlimits⟩
  · rw [herror] at h
    cases h
  · rw [bounded_string_eq py hmax hparsed hn] at h
    split_ifs at h with hbounds
    cases h
    exact ⟨hlimits, n, hn, hbounds⟩

end RestaurantOS.Events.Pydantic
