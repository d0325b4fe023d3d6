import Mathlib.Algebra.Order.Group.Int
import Mathlib.Tactic.Ring

/-!
# The proleptic Gregorian calendar

Days as numbers and as dates. Day 0 is the first of March of year 0, so that a leap day is the last
day of its year, and an era has 400 years of 146097 days. A day is split into its era, the year of
the era, the month of the year counted from March and the day of the month; each part is what is left
of the day after the days before the larger parts, so putting the parts together again gives the day
(`of_date_date`), once each part is known to be in its range (`parts_range`).
-/

namespace Calendar

/-- A date. It may lie before the year 1, and need not exist. -/
structure Date where
  /-- The year. -/
  year : ℤ
  /-- The month, 1 to 12. -/
  month : ℤ
  /-- The day of the month. -/
  day : ℤ
  deriving DecidableEq, Repr

/-- The century of a day of an era. The fourth century has one day more than the others. -/
def century (day : ℤ) : ℤ := min (day / 36524) 3

/-- The year of a day of a cycle of four years. The fourth year has one day more than the others. -/
def year_of_cycle (day : ℤ) : ℤ := min (day / 365) 3

/-- The year of the era of a day of an era. -/
def year_of_era (day : ℤ) : ℤ :=
  let rest := day - 36524 * century day
  100 * century day + 4 * (rest / 1461) + year_of_cycle (rest % 1461)

/-- The days of an era before one of its years. -/
def days_before_year (year : ℤ) : ℤ := 365 * year + year / 4 - year / 100

/-- The days of a year, counted from March, before one of its months, counted from March. -/
def days_before_month (month : ℤ) : ℤ := (153 * month + 2) / 5

/-- The month of a day of a year, both counted from March. -/
def month_of_year (day : ℤ) : ℤ := (5 * day + 2) / 153

/-- The date of a day. Years are counted from March, so that the leap day is the last one. -/
def date (days : ℤ) : Date :=
  let year := year_of_era (days % 146097)
  let day := days % 146097 - days_before_year year
  let month := month_of_year day
  { year := year + days / 146097 * 400 + if month < 10 then 0 else 1
    month := if month < 10 then month + 3 else month - 9
    day := day - days_before_month month + 1 }

/-- The day of a date. It inverts `date` on the dates that exist. -/
def of_date (date : Date) : ℤ :=
  let year := if 2 < date.month then date.year else date.year - 1
  let month := if 2 < date.month then date.month - 3 else date.month + 9
  year / 400 * 146097 + days_before_year (year % 400) + days_before_month month + date.day - 1

/-- The days before a year, by its century, its cycle and its place in the cycle. -/
theorem days_before_year_parts {a b c : ℤ} (hb0 : 0 ≤ b) (hb : b < 25) (hc0 : 0 ≤ c) (hc : c < 4) :
    days_before_year (100 * a + 4 * b + c) = 36524 * a + 1461 * b + 365 * c := by
  unfold days_before_year
  omega

/-- The year and the day of the year of a day of an era. The leap years within an era of 400 years
make four centuries of 25 cycles of four years, where the last of each may be a day short or long.
-/
theorem year_range {day : ℤ} (h0 : 0 ≤ day) (hday : day < 146097) :
    (0 ≤ year_of_era day ∧ year_of_era day < 400) ∧
      0 ≤ day - days_before_year (year_of_era day) ∧
        day - days_before_year (year_of_era day) ≤ 365 := by
  -- A century, then a cycle in the century, then a year in the cycle: each with its range.
  have hcentury : 0 ≤ century day ∧ century day ≤ 3 ∧ 0 ≤ day - 36524 * century day ∧
      day - 36524 * century day ≤ 36524 := by
    unfold century
    omega
  unfold year_of_era
  dsimp only
  generalize century day = a at *
  generalize hrest : day - 36524 * a = rest at *
  have hcycle : 0 ≤ rest / 1461 ∧ rest / 1461 < 25 := by omega
  have hyear : 0 ≤ year_of_cycle (rest % 1461) ∧ year_of_cycle (rest % 1461) < 4 ∧
      0 ≤ rest % 1461 - 365 * year_of_cycle (rest % 1461) ∧
        rest % 1461 - 365 * year_of_cycle (rest % 1461) ≤ 365 := by
    unfold year_of_cycle
    omega
  generalize year_of_cycle (rest % 1461) = c at *
  rw [days_before_year_parts hcycle.1 hcycle.2 hyear.1 hyear.2.1]
  omega

/-- The month and the day of the month of a day of a year. -/
theorem month_range {day : ℤ} (h0 : 0 ≤ day) (hday : day ≤ 365) :
    (0 ≤ month_of_year day ∧ month_of_year day ≤ 11) ∧
      0 ≤ day - days_before_month (month_of_year day) ∧
        day - days_before_month (month_of_year day) ≤ 30 := by
  unfold days_before_month month_of_year
  omega

/-- The parts of a day: what `date` computes, with the ranges of the parts. -/
theorem parts_range (days : ℤ) : ∃ era year month day : ℤ,
    (0 ≤ year ∧ year < 400) ∧ (0 ≤ month ∧ month ≤ 11) ∧ (0 ≤ day ∧ day ≤ 30) ∧
      days = 146097 * era + days_before_year year + days_before_month month + day ∧
        date days = ⟨year + era * 400 + if month < 10 then 0 else 1,
          if month < 10 then month + 3 else month - 9, day + 1⟩ := by
  have hera : 0 ≤ days % 146097 ∧ days % 146097 < 146097 := by omega
  obtain ⟨hyear, hday0, hday⟩ := year_range hera.1 hera.2
  obtain ⟨hmonth, hdom0, hdom⟩ := month_range hday0 hday
  refine ⟨days / 146097, _, _, _, hyear, hmonth, ⟨hdom0, hdom⟩, ?_, rfl⟩
  omega

/-- The date of a day is one of its day. -/
theorem of_date_date (days : ℤ) : of_date (date days) = days := by
  obtain ⟨era, year, month, day, hyear, hmonth, -, hdays, hdate⟩ := parts_range days
  rw [hdate, hdays]
  unfold of_date
  dsimp only
  by_cases h : month < 10
  · have hdiv : (year + era * 400) / 400 = era := by omega
    have hmod : (year + era * 400) % 400 = year := by omega
    simp only [h, if_true, add_zero, if_pos (show 2 < month + 3 by omega), hdiv, hmod,
      add_sub_cancel_right]
    ring
  · have hdiv : (year + era * 400 + 1 - 1) / 400 = era := by omega
    have hmod : (year + era * 400 + 1 - 1) % 400 = year := by omega
    simp only [h, if_false, if_neg (show ¬ 2 < month - 9 by omega), hdiv, hmod, sub_add_cancel]
    ring

/-- A date has a month and a day of the month. -/
theorem date_range (days : ℤ) :
    (1 ≤ (date days).month ∧ (date days).month ≤ 12) ∧
      1 ≤ (date days).day ∧ (date days).day ≤ 31 := by
  obtain ⟨era, year, month, day, -, hmonth, hday, -, hdate⟩ := parts_range days
  rw [hdate]
  dsimp only
  split_ifs <;> omega

/-- The years of the days from the first of January of year 1 to the last day of year 9999. -/
theorem year_date_range {days : ℤ} (hmin : 306 ≤ days) (hmax : days ≤ 3652364) :
    1 ≤ (date days).year ∧ (date days).year ≤ 9999 := by
  obtain ⟨era, year, month, day, hyear, hmonth, hday, hdays, hdate⟩ := parts_range days
  rw [hdate]
  dsimp only
  unfold days_before_year days_before_month at hdays
  split_ifs <;> omega

end Calendar
