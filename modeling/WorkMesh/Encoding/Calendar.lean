import Mathlib

/-!
# Dates of days

Days are numbered from 1970-01-01. Years begin in March here, so that a leap
day is the last day of its year; four hundred years have always the same number
of days.
-/

namespace Encoding

/-- A date of the Gregorian calendar, extended to all years. -/
structure Date where
  year : ℤ
  month : ℤ
  day : ℤ
deriving DecidableEq

/-- The days from the first March of year 0 to that of another year. -/
def yearStart (year : ℤ) : ℤ := 365 * year + year / 4 - year / 100 + year / 400

/-- The number of a date. -/
def Date.number (date : Date) : ℤ :=
  let year := if date.month ≤ 2 then date.year - 1 else date.year
  let month := if date.month ≤ 2 then date.month + 9 else date.month - 3
  yearStart year + (153 * month + 2) / 5 + date.day - 719469

/-- The year of a day after the first March of year 0: its era of four hundred years, then the
century, the four years and the year in it. -/
def marchYear (days : ℤ) : ℤ :=
  let century := min (days % 146097 / 36524) 3
  let inCentury := days % 146097 - 36524 * century
  400 * (days / 146097) + 100 * century + 4 * (inCentury / 1461) +
    min (inCentury % 1461 / 365) 3

/-- The date of a day. -/
def dateOf (number : ℤ) : Date :=
  let days := number + 719468
  let year := marchYear days
  let month := (5 * (days - yearStart year) + 2) / 153
  { year := if 10 ≤ month then year + 1 else year
    month := if 10 ≤ month then month - 9 else month + 3
    day := days - yearStart year - (153 * month + 2) / 5 + 1 }

/-- The number of the day of a week, from Sunday on. -/
def weekdayOf (number : ℤ) : ℤ := (number + 4) % 7

example : dateOf 0 = ⟨1970, 1, 1⟩ ∧ weekdayOf 0 = 4 ∧ dateOf 19782 = ⟨2024, 2, 29⟩ := by decide

/-! ## Years -/

section Years
variable (days : ℤ)

theorem yearStart_next (year : ℤ) :
    yearStart year + 365 ≤ yearStart (year + 1) ∧ yearStart (year + 1) ≤ yearStart year + 366 := by
  simp only [yearStart]
  omega

theorem yearStart_mono {year year' : ℤ} (h : year ≤ year') : yearStart year ≤ yearStart year' := by
  simp only [yearStart]
  omega

theorem yearStart_split (era century leaps year : ℤ) (hcentury : 0 ≤ century ∧ century ≤ 3)
    (hleaps : 0 ≤ leaps ∧ leaps ≤ 24) (hyear : 0 ≤ year ∧ year ≤ 3) :
    yearStart (400 * era + 100 * century + 4 * leaps + year) =
      146097 * era + 36524 * century + 1461 * leaps + 365 * year := by
  have hquarter : (400 * era + 100 * century + 4 * leaps + year) / 4 =
      100 * era + 25 * century + leaps := by omega
  have hhundred : (400 * era + 100 * century + 4 * leaps + year) / 100 = 4 * era + century := by
    omega
  have hfour : (400 * era + 100 * century + 4 * leaps + year) / 400 = era := by omega
  rw [yearStart, hquarter, hhundred, hfour]
  ring

/-- A day lies in its year. -/
theorem marchYear_bounds :
    yearStart (marchYear days) ≤ days ∧ days < yearStart (marchYear days + 1) := by
  simp only [marchYear]
  generalize hcentury : min (days % 146097 / 36524) 3 = century
  generalize hrest : days % 146097 - 36524 * century = inCentury
  generalize hleaps : inCentury / 1461 = leaps
  generalize hyear : min (inCentury % 1461 / 365) 3 = year
  generalize hera : days / 146097 = era
  have hbounds : 0 ≤ century ∧ century ≤ 3 ∧ 0 ≤ leaps ∧ leaps ≤ 24 ∧ 0 ≤ year ∧ year ≤ 3 := by
    omega
  have hdays : days = 146097 * era + 36524 * century + 1461 * leaps + inCentury % 1461 := by omega
  have hstart := yearStart_split era century leaps year ⟨hbounds.1, hbounds.2.1⟩
    ⟨hbounds.2.2.1, hbounds.2.2.2.1⟩ hbounds.2.2.2.2
  rw [hstart]
  refine ⟨by omega, ?_⟩
  by_cases hlast : year = 3
  · subst hlast
    -- The next year begins four years, or else a century or an era.
    by_cases hleaps' : leaps = 24
    · by_cases hcentury' : century = 3
      · have hnext := yearStart_split (era + 1) 0 0 0
          (by decide) (by decide) (by decide)
        have hsame : 400 * era + 100 * century + 4 * leaps + 3 + 1 =
            400 * (era + 1) + 100 * 0 + 4 * 0 + 0 := by omega
        rw [hsame, hnext]
        omega
      · have hnext := yearStart_split era (century + 1) 0 0
          (by omega) (by decide) (by decide)
        have hsame : 400 * era + 100 * century + 4 * leaps + 3 + 1 =
            400 * era + 100 * (century + 1) + 4 * 0 + 0 := by omega
        rw [hsame, hnext]
        omega
    · have hnext := yearStart_split era century (leaps + 1) 0
        (by omega) (by omega) (by decide)
      have hsame : 400 * era + 100 * century + 4 * leaps + 3 + 1 =
          400 * era + 100 * century + 4 * (leaps + 1) + 0 := by omega
      rw [hsame, hnext]
      omega
  · have hnext := (yearStart_next (400 * era + 100 * century + 4 * leaps + year)).1
    rw [hstart] at hnext
    omega

end Years

/-! ## Dates -/

section DateOf
variable (number : ℤ)

theorem dateOf_month : 1 ≤ (dateOf number).month ∧ (dateOf number).month ≤ 12 := by
  have hyear := marchYear_bounds (number + 719468)
  have hnext := (yearStart_next (marchYear (number + 719468))).2
  simp only [dateOf]
  split_ifs <;> omega

theorem dateOf_day : 1 ≤ (dateOf number).day ∧ (dateOf number).day ≤ 31 := by
  have hyear := marchYear_bounds (number + 719468)
  have hnext := (yearStart_next (marchYear (number + 719468))).2
  simp only [dateOf]
  omega

/-- A day is the one that its date numbers. -/
theorem number_dateOf : (dateOf number).number = number := by
  have hyear := marchYear_bounds (number + 719468)
  have hnext := (yearStart_next (marchYear (number + 719468))).2
  simp only [Date.number, dateOf]
  by_cases hlate : 10 ≤ (5 * (number + 719468 - yearStart (marchYear (number + 719468))) + 2) / 153
  · have hearly : (5 * (number + 719468 - yearStart (marchYear (number + 719468))) + 2) / 153 - 9 ≤
      2 := by omega
    simp only [if_pos hlate, if_pos hearly, add_sub_cancel_right, sub_add_cancel]
    omega
  · have hearly : ¬(5 * (number + 719468 - yearStart (marchYear (number + 719468))) + 2) / 153 + 3 ≤
      2 := by omega
    simp only [if_neg hlate, if_neg hearly, add_sub_cancel_right]
    omega

/-- One date comes before another. -/
def Date.Before (a b : Date) : Prop :=
  a.year < b.year ∨ a.year = b.year ∧ (a.month < b.month ∨ a.month = b.month ∧ a.day < b.day)

/-- Dates come in the order of their days. -/
theorem dateOf_before {number number' : ℤ} (h : number < number') :
    (dateOf number).Before (dateOf number') := by
  obtain ⟨hle, hlt⟩ := marchYear_bounds (number + 719468)
  obtain ⟨hle', hlt'⟩ := marchYear_bounds (number' + 719468)
  have hnext := (yearStart_next (marchYear (number + 719468))).2
  have hnext' := (yearStart_next (marchYear (number' + 719468))).2
  have hyears : marchYear (number + 719468) ≤ marchYear (number' + 719468) := by
    by_contra hgt
    have hmono := @yearStart_mono (marchYear (number' + 719468) + 1)
      (marchYear (number + 719468)) (by omega)
    omega
  simp only [Date.Before, dateOf]
  rcases hyears.lt_or_eq with hyear | hyear
  · generalize marchYear (number + 719468) = year at *
    generalize marchYear (number' + 719468) = year' at *
    generalize hm : (5 * (number + 719468 - yearStart year) + 2) / 153 = month
    generalize hm' : (5 * (number' + 719468 - yearStart year') + 2) / 153 = month'
    have hlast : month ≤ 11 ∧ 0 ≤ month' := by omega
    split_ifs <;> omega
  · rw [← hyear] at hle' hlt' hnext' ⊢
    generalize yearStart (marchYear (number + 719468)) = start at *
    generalize hm : (5 * (number + 719468 - start) + 2) / 153 = month
    generalize hm' : (5 * (number' + 719468 - start) + 2) / 153 = month'
    have hmonths : month ≤ month' := by omega
    split_ifs <;> omega

end DateOf

end Encoding
