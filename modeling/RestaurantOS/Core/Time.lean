import Mathlib.Data.Rat.Floor
import Mathlib.Algebra.Order.Floor.Ring

/-!
# Instants and durations

A `timestamptz` column holds an instant with a resolution of one microsecond, so an instant is the
number of microseconds since the epoch and a duration a number of microseconds. Identifiers drawn
from `uuid4` are numbered in the order in which they are drawn.
-/

namespace RestaurantOS

/-- A 128-bit identifier. Those drawn from `uuid4` are numbered in the order of the draws. -/
abbrev UUID := ℕ

/-- An instant, in microseconds since the epoch. It may be any integer, and `datetime` has only
those of `datetime_range`. -/
abbrev Timestamp := ℤ

/-- A duration, in microseconds. It may be negative. -/
abbrev Timedelta := ℤ

/-- The integer nearest to `x`, the even one of two that are equally near. -/
def round_half_even (x : ℚ) : ℤ :=
  if x - ⌊x⌋ < 1 / 2 then ⌊x⌋
  else if 1 / 2 < x - ⌊x⌋ then ⌊x⌋ + 1
  else if ⌊x⌋ % 2 = 0 then ⌊x⌋ else ⌊x⌋ + 1

/-- `timedelta(seconds=s)`, rounded to microseconds as the constructor rounds. -/
def timedelta_seconds (s : ℚ) : Timedelta := round_half_even (s * 1000000)

/-- `timedelta(milliseconds=ms)` of a whole number of milliseconds. A millisecond is a thousand
microseconds. -/
def timedelta_milliseconds (ms : ℤ) : Timedelta := ms * 1000

end RestaurantOS
