/-!
# The calendar

The Gregorian calendar, run backwards to year 1. Days are numbered from 1 January of
year 1, which is a Monday and has number zero; years go up to 9999.

* `DocumentFilter.Date`: a year, a month and a day of it, in range or not;
* `DocumentFilter.Date.dayNumber`, `DocumentFilter.Date.ofDayNumber`: the number of the day
  and back;
* `DocumentFilter.Day`: a day of the years 1 to 9999;
* `DocumentFilter.weekDate?`: the date of a day of a week.
-/

namespace DocumentFilter

/-- A year with a 29 February. -/
def isLeap (year : Nat) : Bool :=
  year % 4 = 0 && (year % 100 ≠ 0 || year % 400 = 0)

/-- The lengths of the months of a year, from January on. -/
def monthLengths (leap : Bool) : List Nat :=
  [31, if leap then 29 else 28, 31, 30, 31, 30, 31, 31, 30, 31, 30, 31]

/-- The number of days in the first `months` of the given months. -/
def daysBefore : List Nat → Nat → Nat
  | length :: lengths, months + 1 => length + daysBefore lengths months
  | _, _ => 0

/-- The month in which a day falls, and the day's number in it, both counted from zero. -/
def locate : List Nat → Nat → Nat × Nat
  | [], n => (0, n)
  | length :: lengths, n =>
    if n < length then (0, n)
    else ((locate lengths (n - length)).1 + 1, (locate lengths (n - length)).2)

/-- The number of days in the years from 1 to the one before the given. -/
def daysBeforeYear (year : Nat) : Nat :=
  365 * (year - 1) + (year - 1) / 4 - (year - 1) / 100 + (year - 1) / 400

/-- The last year. -/
def lastYear : Nat := 9999

/-- The number of days in the years 1 to 9999. -/
def dayLimit : Nat := 3652059

theorem dayLimit_eq : dayLimit = daysBeforeYear (lastYear + 1) := by decide

/-- A year, a month and a day, the last two counted from one. -/
structure Date where
  year : Nat
  month : Nat
  day : Nat
deriving DecidableEq

namespace Date

/-- The length of a month, which is zero beyond December. -/
def monthLength (year month : Nat) : Nat :=
  ((monthLengths (isLeap year))[month - 1]?).getD 0

/-- A date of the calendar, in a year from 1 to 9999. -/
def Valid (date : Date) : Prop :=
  (1 ≤ date.year ∧ date.year ≤ lastYear) ∧ (1 ≤ date.month ∧ date.month ≤ 12) ∧
    1 ≤ date.day ∧ date.day ≤ monthLength date.year date.month

instance (date : Date) : Decidable date.Valid :=
  inferInstanceAs (Decidable (_ ∧ _ ∧ _ ∧ _))

/-- The number of a day. -/
def dayNumber (date : Date) : Nat :=
  daysBeforeYear date.year + daysBefore (monthLengths (isLeap date.year)) (date.month - 1) +
    (date.day - 1)

/-- The year in which a day falls, and the day's number in it, counted from zero. In 400
years there are 146097 days, in 100 years 36524 and in 4 years 1461, a leap day at the
end of a period apart. -/
def yearOf (n : Nat) : Nat × Nat :=
  let n₁ := n % 146097
  let centuries := min (n₁ / 36524) 3
  let n₂ := n₁ - 36524 * centuries
  let n₃ := n₂ % 1461
  let years := min (n₃ / 365) 3
  (400 * (n / 146097) + 100 * centuries + 4 * (n₂ / 1461) + years + 1, n₃ - 365 * years)

/-- The date of the day with the given number. -/
def ofDayNumber (n : Nat) : Date :=
  let (year, n) := yearOf n
  let (month, n) := locate (monthLengths (isLeap year)) n
  ⟨year, month + 1, n + 1⟩

end Date

/-- A day of the years 1 to 9999. -/
structure Day where
  number : Nat
  number_lt : number < dayLimit
deriving DecidableEq

/-- The date of a day. -/
def Day.date (day : Day) : Date :=
  Date.ofDayNumber day.number

/-! ### Weeks -/

/-- The number of the Monday on which the first week of a year starts: the week that
holds 4 January. -/
def firstMonday (year : Nat) : Nat :=
  let first := daysBeforeYear year
  let weekday := first % 7
  if 3 < weekday then first + 7 - weekday else first - weekday

/-- The number of weeks of a year: 53 if it starts on a Thursday, or on a Wednesday with
a 29 February to come. -/
def weekCount (year : Nat) : Nat :=
  let weekday := daysBeforeYear year % 7
  if weekday = 3 ∨ (weekday = 2 ∧ isLeap year) then 53 else 52

/-- The date of a day of a week of a year; the last week of year 9999 runs into the next
year. -/
def weekDate? (year week day : Nat) : Option Date :=
  if (1 ≤ year ∧ year ≤ lastYear) ∧ (1 ≤ week ∧ week ≤ weekCount year) ∧ 1 ≤ day ∧ day ≤ 7 then
    some (Date.ofDayNumber (firstMonday year + 7 * (week - 1) + (day - 1)))
  else none

end DocumentFilter
