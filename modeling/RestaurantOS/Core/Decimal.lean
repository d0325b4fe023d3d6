import Mathlib.Data.Rat.Lemmas
import RestaurantOS.Core.Errors

/-!
# Decimal numbers

A `Decimal` of a request has a sign, a coefficient and an exponent, or is infinite or not a number.
A stored number is a rational. Sums, products and comparisons of the stored numbers are exact: they
have at most twelve digits, and whatever exceeds the 28 digits of the arithmetic context exceeds
every column and every balance as well.
-/

namespace RestaurantOS

/-- `decimal.Decimal`. A finite one is the coefficient times a power of ten, with its sign. -/
inductive Decimal
  | finite (negative : Bool) (coefficient : ℕ) (exponent : ℤ)
  | infinite (negative : Bool)
  | nan
  deriving DecidableEq, Repr

/-- The number that a finite decimal stands for. -/
def Decimal.value : Decimal → Option ℚ
  | .finite negative coefficient exponent =>
    let magnitude : ℚ :=
      if 0 ≤ exponent then coefficient * 10 ^ exponent.toNat
      else coefficient / 10 ^ (-exponent).toNat
    some (if negative then -magnitude else magnitude)
  | .infinite _ | .nan => none

/-- A number that `quantize` to a number of decimal places leaves as it is. -/
def has_decimal_places (places : ℕ) (value : ℚ) : Prop := (value * 10 ^ places).den = 1

/-- Denominators are compared. -/
instance (places : ℕ) (value : ℚ) : Decidable (has_decimal_places places value) :=
  inferInstanceAs (Decidable (_ = _))

end RestaurantOS
