import Mathlib.Algebra.Order.Group.Int
import RestaurantOS.Core.Time

/-!
# Date and time values

A `datetime` has a wall-clock reading in the years 1 to 9999 and, unless it is naive, an offset from
UTC of less than a day. The reading is counted in microseconds from the epoch, as an instant is.
-/

namespace RestaurantOS

/-- The readings of the years 1 to 9999. -/
def datetime_range (reading : ℤ) : Prop :=
  -62135596800000000 ≤ reading ∧ reading ≤ 253402300799999999

/-- Two bounds are compared. -/
instance (reading : ℤ) : Decidable (datetime_range reading) := inferInstanceAs (Decidable (_ ∧ _))

/-- `datetime`. Its instant is the reading less the offset. -/
structure Datetime where
  /-- The reading of the wall clock. -/
  wall : ℤ
  /-- `utcoffset()`; `none` for a naive value. -/
  utcoffset : Option Timedelta
  /-- The year is between 1 and 9999. -/
  wall_range : datetime_range wall
  /-- The offset is less than a day. -/
  offset_range : ∀ offset ∈ utcoffset, -86400000000 < offset ∧ offset < 86400000000
  deriving DecidableEq

/-- A `datetime` in UTC. The instant is in the range of `datetime`. -/
abbrev UtcDatetime := {instant : Timestamp // datetime_range instant}

namespace Datetime

/-- A value in UTC as a `datetime`. It is aware, with an offset of zero. -/
def of_utc (instant : UtcDatetime) : Datetime where
  wall := instant.1
  utcoffset := some 0
  wall_range := instant.2
  offset_range := fun _ h => by cases h; decide

/-- The least and the greatest reading bound every clamped one. -/
theorem clamp_range (instant : Timestamp) :
    datetime_range (max (-62135596800000000) (min instant 253402300799999999)) := by
  unfold datetime_range
  omega

/-- The `datetime` in UTC that is nearest to an instant. -/
def nearest (instant : Timestamp) : UtcDatetime := ⟨_, clamp_range instant⟩

/-- An instant of the years 1 to 9999 is its own nearest `datetime`. -/
theorem nearest_eq {instant : Timestamp} (h : datetime_range instant) : (nearest instant).1 = instant := by
  obtain ⟨hlow, hhigh⟩ := h
  show max (-62135596800000000) (min instant 253402300799999999) = instant
  rw [min_eq_left hhigh, max_eq_right hlow]

/-- `replace(tzinfo=UTC)`. The reading stays, and any offset is dropped. -/
def replace_utc (value : Datetime) : UtcDatetime := ⟨value.wall, value.wall_range⟩

/-- `astimezone(UTC)` of a value with an offset; `none` is its `OverflowError`. -/
def astimezone_utc (value : Datetime) (offset : Timedelta) : Option UtcDatetime :=
  if h : datetime_range (value.wall - offset) then some ⟨value.wall - offset, h⟩ else none

/-- A value in UTC stays as it is. -/
theorem astimezone_of_utc (instant : UtcDatetime) : (of_utc instant).astimezone_utc 0 = some instant := by
  have h : datetime_range ((of_utc instant).wall - 0) := by
    rw [sub_zero]
    exact instant.2
  rw [astimezone_utc, dif_pos h]
  exact congrArg some (Subtype.ext (sub_zero _))

/-- The conversion raises exactly if the instant leaves the years 1 to 9999. -/
theorem astimezone_utc_eq_none {value : Datetime} {offset : Timedelta} :
    value.astimezone_utc offset = none ↔ ¬ datetime_range (value.wall - offset) := by
  unfold astimezone_utc
  split_ifs with h
  · simp [h]
  · simp [h]

end Datetime

end RestaurantOS
