import WindowJoin.Time.Calendar

/-!
# Dates of days exist

The date that a day number stands for is a date of the calendar (`of_day_number_valid`): its month is
one of twelve and its day is one of that month. What needs an argument is the last day of a leap year
that begins in March, 29 February (`leap_of_last_day`).
-/

namespace WindowJoin.CivilDate

/-- Leap years repeat every 400 years. -/
theorem is_leap_year_add_era (year era : Int) :
    isLeapYear (year + era * 400) = isLeapYear year := by
  have hfour : (year + era * 400) % 4 = year % 4 := by omega
  have hhundred : (year + era * 400) % 100 = year % 100 := by omega
  have hera : (year + era * 400) % 400 = year % 400 := by omega
  simp only [isLeapYear, hfour, hhundred, hera]

/-- A year that begins in March has a day 365 only if it ends in a leap year. -/
theorem leap_of_last_day {dayOfEra : Int} (hlow : 0 ≤ dayOfEra) (hhigh : dayOfEra < 146097)
    (hlast : dayOfEra - daysBeforeYear (yearOfEra dayOfEra) = 365) :
    isLeapYear (yearOfEra dayOfEra + 1) = true := by
  obtain ⟨century, fourYears, year, hsplit, hcentury, hfour, hyear, -, -, hend⟩ :=
    year_of_era_split dayOfEra hlow hhigh
  obtain ⟨hthird, hcenturyEnd⟩ := hend hlast
  -- The next year is a fourth one, and it is a hundredth one only at the end of the era.
  rw [hsplit, hthird]
  simp only [isLeapYear, Bool.and_eq_true, Bool.or_eq_true, decide_eq_true_eq]
  omega

/-- The date of a day of a year exists. -/
theorem of_year_day_valid {era year dayOfYear : Int} (hday : 0 ≤ dayOfYear ∧ dayOfYear < 366)
    (hlast : dayOfYear = 365 → isLeapYear (year + 1) = true) :
    (ofYearDay era year dayOfYear).IsValid := by
  have hmonth : 0 ≤ (5 * dayOfYear + 2) / 153 ∧ (5 * dayOfYear + 2) / 153 < 12 := by omega
  have hleap : dayOfYear = 365 → isLeapYear (year + era * 400 + 1) = true := by
    intro hend
    rw [show year + era * 400 + 1 = year + 1 + era * 400 by omega, is_leap_year_add_era]
    exact hlast hend
  simp only [IsValid, ofYearDay, daysBeforeMonth]
  generalize hfrom : (5 * dayOfYear + 2) / 153 = monthFromMarch at *
  by_cases hten : monthFromMarch < 10
  · simp only [hten, if_true, daysInMonth]
    split
    · omega
    · split <;> omega
  · simp only [hten, if_false, daysInMonth]
    split
    next hfebruary =>
      split
      next => omega
      next hcommon =>
        have hshort : dayOfYear ≠ 365 := fun hend => hcommon (hleap hend)
        omega
    next => split <;> omega

/-- The date of a day exists. -/
theorem of_day_number_valid (number : Int) : (ofDayNumber number).IsValid := by
  have hera : 0 ≤ (number + epochDay) % daysPerEra ∧ (number + epochDay) % daysPerEra < 146097 := by
    unfold daysPerEra
    omega
  exact of_year_day_valid (year_of_era_bounds _ hera.1 hera.2).2 (leap_of_last_day hera.1 hera.2)

end WindowJoin.CivilDate
