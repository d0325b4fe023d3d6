import RestaurantOS.Core.Datetimes
import RestaurantOS.Lib.Calendar
import RestaurantOS.Lib.Numerals

/-!
# The texts of date and time values

The text of a `datetime` in UTC, such as `2026-03-01T12:30:00Z` with six digits of a second where they
are not zero, and the reading of such a text with any offset or none. A text that is written reads as
the value it was written for (`read_iso_text`).
-/

namespace RestaurantOS.IsoTime

open Calendar Numerals

/-- The days of the calendar before the epoch. -/
def epoch : ℤ := 719468

/-- The microseconds of a day. Days have no leap seconds. -/
def day_length : ℤ := 86400000000

/-! ## Writing -/

/-- The text of a date. Year, month and day have fixed widths. -/
def date_text (date : Date) : List Char :=
  fixed_width 4 date.year.toNat ++ '-' :: (fixed_width 2 date.month.toNat ++ '-' ::
    fixed_width 2 date.day.toNat)

/-- The text of a time of day in microseconds. -/
def time_text (time : ℕ) : List Char :=
  fixed_width 2 (time / 3600000000) ++ ':' :: (fixed_width 2 (time / 60000000 % 60) ++ ':' ::
    (fixed_width 2 (time / 1000000 % 60) ++
      if time % 1000000 = 0 then [] else '.' :: fixed_width 6 (time % 1000000)))

/-- The text of a `datetime` in UTC. It ends in `Z` instead of an offset. -/
def iso_text (instant : UtcDatetime) : String :=
  String.ofList (date_text (date (instant.1 / day_length + epoch)) ++ 'T' ::
    (time_text (instant.1 % day_length).toNat ++ ['Z']))

/-! ## Reading -/

/-- The text after a given character. It is `none` where the text does not start with it. -/
def expect (c : Char) : List Char → Option (List Char)
  | d :: text => if d = c then some text else none
  | [] => none

/-- The date at the start of a text, and the text after it. A date that the calendar does not have is
none. -/
def read_date (text : List Char) : Option (ℤ × List Char) := do
  let (year, text) ← read_fixed_width 4 text
  let text ← expect '-' text
  let (month, text) ← read_fixed_width 2 text
  let text ← expect '-' text
  let (day, text) ← read_fixed_width 2 text
  let days := of_date ⟨year, month, day⟩
  if date days = ⟨year, month, day⟩ then some (days, text) else none

/-- The six digits of a second after a point, if there is one. -/
def read_microseconds : List Char → Option (ℕ × List Char)
  | '.' :: text => read_fixed_width 6 text
  | text => some (0, text)

/-- The time of day at the start of a text, and the text after it. -/
def read_time (text : List Char) : Option (ℕ × List Char) := do
  let (hour, text) ← read_fixed_width 2 text
  let text ← expect ':' text
  let (minute, text) ← read_fixed_width 2 text
  let text ← expect ':' text
  let (second, text) ← read_fixed_width 2 text
  let (microsecond, text) ← read_microseconds text
  if hour < 24 ∧ minute < 60 ∧ second < 60 then
    some (((hour * 60 + minute) * 60 + second) * 1000000 + microsecond, text)
  else none

/-- The offset of hours and minutes after its sign. -/
def read_hours_minutes (sign : ℤ) (text : List Char) : Option Timedelta := do
  let (hours, text) ← read_fixed_width 2 text
  let text ← expect ':' text
  let (minutes, text) ← read_fixed_width 2 text
  if text = [] ∧ minutes < 60 then some (sign * ((hours * 60 + minutes) * 60000000)) else none

/-- The offset at the end of a text; a text without one is naive. -/
def read_offset : List Char → Option (Option Timedelta)
  | [] => some none
  | ['Z'] => some (some 0)
  | '+' :: text => (read_hours_minutes 1 text).map some
  | '-' :: text => (read_hours_minutes (-1) text).map some
  | _ => none

/-- A `datetime` with a given reading and offset, if they are in range. -/
def make (wall : ℤ) (utcoffset : Option Timedelta) : Option Datetime :=
  if h : datetime_range wall ∧
      ∀ offset ∈ utcoffset, -86400000000 < offset ∧ offset < 86400000000 then
    some ⟨wall, utcoffset, h.1, h.2⟩
  else none

/-- The `datetime` that a text stands for. The offset may be missing, and then the value is naive.
-/
def read_iso (text : String) : Option Datetime := do
  let (days, text) ← read_date text.toList
  let text ← expect 'T' text
  let (time, text) ← read_time text
  let offset ← read_offset text
  make ((days - epoch) * day_length + time) offset

/-! ## Reading what was written -/

/-- The character that is expected. -/
@[simp] theorem expect_cons (c : Char) (text : List Char) : expect c (c :: text) = some text := if_pos rfl

/-- A written date reads as its day. Year, month and day have their widths, and the calendar takes
them back to the day. -/
theorem read_date_text {days : ℤ} (hmin : 306 ≤ days) (hmax : days ≤ 3652364) (rest : List Char) :
    read_date (date_text (date days) ++ rest) = some (days, rest) := by
  obtain ⟨hmonth, hday⟩ := date_range days
  have hyear := year_date_range hmin hmax
  have hback := of_date_date days
  generalize hd : date days = d at *
  have hnat : (⟨d.year.toNat, d.month.toNat, d.day.toNat⟩ : Date) = d := by
    obtain ⟨year, month, day⟩ := d
    dsimp only at hyear hmonth hday ⊢
    rw [Int.toNat_of_nonneg (by omega), Int.toNat_of_nonneg (by omega),
      Int.toNat_of_nonneg (by omega)]
  unfold read_date date_text
  simp only [List.append_assoc, List.cons_append]
  rw [read_fixed_width_append (by omega)]
  simp only [Option.bind_eq_bind, Option.bind_some, expect_cons]
  rw [read_fixed_width_append (by omega)]
  simp only [Option.bind_some, expect_cons]
  rw [read_fixed_width_append (by omega)]
  simp only [Option.bind_some, hnat, hback, hd, if_true]

/-- A written time of day reads as itself. The microseconds are left out where they are zero, and
the reader takes both forms. -/
theorem read_time_text {time : ℕ} (h : time < 86400000000) :
    read_time (time_text time ++ ['Z']) = some (time, ['Z']) := by
  have hparts : ((time / 3600000000 * 60 + time / 60000000 % 60) * 60 + time / 1000000 % 60) * 1000000 +
      time % 1000000 = time := by omega
  have hhour : time / 3600000000 < 24 := by omega
  have hminute : time / 60000000 % 60 < 60 := Nat.mod_lt _ (by decide)
  have hsecond : time / 1000000 % 60 < 60 := Nat.mod_lt _ (by decide)
  have hmicro : read_microseconds ((if time % 1000000 = 0 then [] else
      '.' :: fixed_width 6 (time % 1000000)) ++ ['Z']) = some (time % 1000000, ['Z']) := by
    split_ifs with hzero
    · rw [hzero]
      rfl
    · exact read_fixed_width_append (by omega) ['Z']
  unfold read_time time_text
  simp only [List.append_assoc, List.cons_append]
  rw [read_fixed_width_append (by omega)]
  simp only [Option.bind_eq_bind, Option.bind_some, expect_cons]
  rw [read_fixed_width_append (by omega)]
  simp only [Option.bind_some, expect_cons]
  rw [read_fixed_width_append (by omega)]
  simp only [Option.bind_some, hmicro, hparts, hhour, hminute, hsecond, and_self, if_true]

/-- The day of an instant is one of the years 1 to 9999. -/
theorem day_range {instant : ℤ} (h : datetime_range instant) :
    306 ≤ instant / day_length + epoch ∧ instant / day_length + epoch ≤ 3652364 := by
  unfold datetime_range at h
  unfold day_length epoch
  omega

/-- The day and the time of day of an instant make it up. -/
theorem day_time (instant : ℤ) : (instant % day_length).toNat < 86400000000 ∧
    (instant / day_length + epoch - epoch) * day_length + ((instant % day_length).toNat : ℤ) =
      instant := by
  unfold day_length epoch
  omega

/-- A written `datetime` reads as the value in UTC that it was written for. -/
theorem read_iso_text (instant : UtcDatetime) :
    read_iso (iso_text instant) = some (Datetime.of_utc instant) := by
  obtain ⟨hmin, hmax⟩ := day_range instant.2
  obtain ⟨htime, hwall⟩ := day_time instant.1
  have hmake : make instant.1 (some 0) = some (Datetime.of_utc instant) := by
    rw [make, dif_pos ⟨instant.2, (Datetime.of_utc instant).offset_range⟩]
    rfl
  unfold read_iso iso_text
  rw [String.toList_ofList, read_date_text hmin hmax]
  simp only [Option.bind_eq_bind, Option.bind_some, expect_cons, read_time_text htime, read_offset,
    hwall, hmake]

end RestaurantOS.IsoTime
