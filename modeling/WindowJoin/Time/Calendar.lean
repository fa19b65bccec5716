/-!
# Calendar dates

The proleptic Gregorian calendar. Dates and day numbers (days since 1 January 1970) are turned into
each other through years that begin in March, so that the leap day is the last day of its year: such
years repeat every 400, and their months every five months have 153 days. Main statement:
`day_number_of_day_number`, no day is lost on the way to a date and back.
-/

namespace WindowJoin

/-- A calendar date. Months and days count from one, and the year before 1 is 0. -/
structure CivilDate where
  year : Int
  month : Int
  day : Int
  deriving DecidableEq, Repr

namespace CivilDate

/-- The days in 400 years. -/
def daysPerEra : Int := 146097

/-- The day number of 1 January 1970, counted from 1 March of the year 0. -/
def epochDay : Int := 719468

/-- The days before a year of an era that begins in March. -/
def daysBeforeYear (yearOfEra : Int) : Int :=
  365 * yearOfEra + yearOfEra / 4 - yearOfEra / 100

/-- The days before a month of a year that begins in March, which is month 0. -/
def daysBeforeMonth (monthFromMarch : Int) : Int :=
  (153 * monthFromMarch + 2) / 5

/-- The days from 1 January 1970 to a date, negative for earlier dates. -/
def dayNumber (date : CivilDate) : Int :=
  let year := if date.month ≤ 2 then date.year - 1 else date.year
  let monthFromMarch := if date.month ≤ 2 then date.month + 9 else date.month - 3
  let yearOfEra := year % 400
  year / 400 * daysPerEra + daysBeforeYear yearOfEra + daysBeforeMonth monthFromMarch
    + (date.day - 1) - epochDay

/-- The year of an era that a day of the era lies in. A century has 36524 days and four years have
1461; the last day of an era ends the fourth century, and a leap day ends a fourth year. -/
def yearOfEra (dayOfEra : Int) : Int :=
  let century := min (dayOfEra / 36524) 3
  let dayOfCentury := dayOfEra - 36524 * century
  let fourYears := dayOfCentury / 1461
  let year := min ((dayOfCentury - 1461 * fourYears) / 365) 3
  100 * century + 4 * fourYears + year

/-- The date of a day of a year that begins in March. -/
def ofYearDay (era yearOfEra dayOfYear : Int) : CivilDate :=
  let monthFromMarch := (5 * dayOfYear + 2) / 153
  let year := yearOfEra + era * 400
  ⟨if monthFromMarch < 10 then year else year + 1,
    if monthFromMarch < 10 then monthFromMarch + 3 else monthFromMarch - 9,
    dayOfYear - daysBeforeMonth monthFromMarch + 1⟩

/-- The date this many days from 1 January 1970. -/
def ofDayNumber (number : Int) : CivilDate :=
  let dayOfEra := (number + epochDay) % daysPerEra
  ofYearDay ((number + epochDay) / daysPerEra) (yearOfEra dayOfEra)
    (dayOfEra - daysBeforeYear (yearOfEra dayOfEra))

/-- Every fourth year is a leap year, apart from three in four centuries. -/
def isLeapYear (year : Int) : Bool :=
  year % 4 = 0 && (year % 100 ≠ 0 || year % 400 = 0)

/-- The days in a month. -/
def daysInMonth (year month : Int) : Int :=
  if month = 2 then (if isLeapYear year then 29 else 28)
  else if month = 4 ∨ month = 6 ∨ month = 9 ∨ month = 11 then 30
  else 31

/-- The month and the day exist. -/
def IsValid (date : CivilDate) : Prop :=
  1 ≤ date.month ∧ date.month ≤ 12 ∧ 1 ≤ date.day ∧ date.day ≤ daysInMonth date.year date.month

instance (date : CivilDate) : Decidable date.IsValid :=
  inferInstanceAs (Decidable (_ ∧ _))

/-- A day of an era lies in a year of four years of a century. A year that has a day 365 is the last
of its four years, and if these are the last of their century, then that is the last of the era. -/
theorem year_of_era_split (dayOfEra : Int) (hlow : 0 ≤ dayOfEra) (hhigh : dayOfEra < 146097) :
    ∃ century fourYears year : Int,
      yearOfEra dayOfEra = 100 * century + 4 * fourYears + year ∧
      (0 ≤ century ∧ century ≤ 3) ∧ (0 ≤ fourYears ∧ fourYears ≤ 24) ∧ (0 ≤ year ∧ year ≤ 3) ∧
      0 ≤ dayOfEra - daysBeforeYear (yearOfEra dayOfEra) ∧
      dayOfEra - daysBeforeYear (yearOfEra dayOfEra) ≤ 365 ∧
      (dayOfEra - daysBeforeYear (yearOfEra dayOfEra) = 365 →
        year = 3 ∧ (fourYears = 24 → century = 3)) := by
  simp only [yearOfEra, daysBeforeYear]
  have hcentury : 0 ≤ min (dayOfEra / 36524) 3 ∧ min (dayOfEra / 36524) 3 ≤ 3 ∧
      0 ≤ dayOfEra - 36524 * min (dayOfEra / 36524) 3 ∧
      dayOfEra - 36524 * min (dayOfEra / 36524) 3 ≤ 36524 ∧
      (dayOfEra - 36524 * min (dayOfEra / 36524) 3 = 36524 → min (dayOfEra / 36524) 3 = 3) := by
    omega
  generalize min (dayOfEra / 36524) 3 = century at *
  generalize hday : dayOfEra - 36524 * century = dayOfCentury at *
  have hfour : 0 ≤ dayOfCentury / 1461 ∧ dayOfCentury / 1461 < 25 := by omega
  have hrest : 0 ≤ dayOfCentury - 1461 * (dayOfCentury / 1461) ∧
      dayOfCentury - 1461 * (dayOfCentury / 1461) < 1461 := by omega
  generalize dayOfCentury / 1461 = fourYears at *
  generalize hrem : dayOfCentury - 1461 * fourYears = dayOfFour at *
  have hyear : 0 ≤ min (dayOfFour / 365) 3 ∧ min (dayOfFour / 365) 3 ≤ 3 ∧
      0 ≤ dayOfFour - 365 * min (dayOfFour / 365) 3 ∧
      dayOfFour - 365 * min (dayOfFour / 365) 3 ≤ 365 ∧
      (dayOfFour - 365 * min (dayOfFour / 365) 3 = 365 → min (dayOfFour / 365) 3 = 3) := by omega
  generalize min (dayOfFour / 365) 3 = year at *
  have hquarter : (100 * century + 4 * fourYears + year) / 4 = 25 * century + fourYears := by omega
  have hhundredth : (100 * century + 4 * fourYears + year) / 100 = century := by omega
  refine ⟨century, fourYears, year, rfl, by omega, by omega, by omega, ?_⟩
  rw [hquarter, hhundredth]
  omega

/-- A day of an era lies in one of 400 years, on one of at most 366 days. -/
theorem year_of_era_bounds (dayOfEra : Int) (hlow : 0 ≤ dayOfEra) (hhigh : dayOfEra < 146097) :
    (0 ≤ yearOfEra dayOfEra ∧ yearOfEra dayOfEra < 400) ∧
      0 ≤ dayOfEra - daysBeforeYear (yearOfEra dayOfEra) ∧
      dayOfEra - daysBeforeYear (yearOfEra dayOfEra) < 366 := by
  obtain ⟨century, fourYears, year, hsplit, hcentury, hfour, hyear, hfirst, hlast, -⟩ :=
    year_of_era_split dayOfEra hlow hhigh
  omega

/-- The number of a day of a year counts the days of the years before it. -/
theorem day_number_of_year_day (era year dayOfYear : Int) (hyear : 0 ≤ year ∧ year < 400)
    (hday : 0 ≤ dayOfYear ∧ dayOfYear < 366) :
    (ofYearDay era year dayOfYear).dayNumber =
      era * daysPerEra + daysBeforeYear year + dayOfYear - epochDay := by
  have hmonth : 0 ≤ (5 * dayOfYear + 2) / 153 ∧ (5 * dayOfYear + 2) / 153 < 12 := by omega
  simp only [ofYearDay, dayNumber]
  by_cases hten : (5 * dayOfYear + 2) / 153 < 10
  · have hlarge : ¬ (5 * dayOfYear + 2) / 153 + 3 ≤ 2 := by omega
    have hmod : (year + era * 400) % 400 = year := by omega
    have hdiv : (year + era * 400) / 400 = era := by omega
    simp only [hten, if_true, hlarge, if_false, hmod, hdiv, Int.add_sub_cancel]
    omega
  · have hsmall : (5 * dayOfYear + 2) / 153 - 9 ≤ 2 := by omega
    have hmod : (year + era * 400 + 1 - 1) % 400 = year := by omega
    have hdiv : (year + era * 400 + 1 - 1) / 400 = era := by omega
    simp only [hten, if_false, hsmall, if_true, hmod, hdiv, Int.sub_add_cancel]
    omega

/-- The date of a day has that day's number. -/
theorem day_number_of_day_number (number : Int) : (ofDayNumber number).dayNumber = number := by
  have hera : 0 ≤ (number + epochDay) % daysPerEra ∧ (number + epochDay) % daysPerEra < 146097 := by
    unfold daysPerEra
    omega
  have hbounds := year_of_era_bounds _ hera.1 hera.2
  have hsplit := Int.mul_ediv_add_emod (number + epochDay) daysPerEra
  rw [ofDayNumber, day_number_of_year_day _ _ _ hbounds.1 hbounds.2,
    Int.mul_comm ((number + epochDay) / daysPerEra)]
  omega

end CivilDate

end WindowJoin
