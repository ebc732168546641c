import DocumentFilter.Time.Moment
import Mathlib.Tactic.SplitIfs

/-!
# The calendar, there and back

A day has a number and a date, and a moment a time of day as well. That either determines the
other is a statement about the sizes of the periods of the calendar: four centuries, a century,
four years, a year and a month, of which each is a day longer or shorter now and then. The day
that is extra comes at the end of its period, so the count of the smaller periods in a larger
one is cut off at their number; and this is where the argument has to look twice, once for the
centuries and once for the years.

* `DocumentFilter.Date.yearOf_eq`: what is known of the year in which a day falls;
* `DocumentFilter.Date.dayNumber_ofDayNumber`, `DocumentFilter.Date.valid_ofDayNumber`: the date
  of a day;
* `DocumentFilter.Date.Valid.dayNumber_inj`: no two dates of the calendar are the same day;
* `DocumentFilter.Moment.ofFields_date_clock`: the date and the time of day of a moment.
-/

namespace DocumentFilter

/-! ### Years -/

theorem isLeap_eq_true_iff {year : Nat} :
    isLeap year = true ↔ year % 4 = 0 ∧ (year % 100 ≠ 0 ∨ year % 400 = 0) := by
  simp [isLeap]

namespace Date

/-- **The year in which a day falls**, by the centuries, periods of four years and years that are
over in its period of 400 years. The last day of a year of 366 is one of a leap year. -/
theorem yearOf_eq (n : Nat) : ∃ a c q y d, c ≤ 3 ∧ q ≤ 24 ∧ y ≤ 3 ∧
    yearOf n = (400 * a + 100 * c + 4 * q + y + 1, d) ∧
    n = 146097 * a + 36524 * c + 1461 * q + 365 * y + d ∧
    d ≤ 365 ∧ (d = 365 → isLeap (400 * a + 100 * c + 4 * q + y + 1) = true) := by
  refine ⟨n / 146097, min (n % 146097 / 36524) 3,
    (n % 146097 - 36524 * min (n % 146097 / 36524) 3) / 1461,
    min ((n % 146097 - 36524 * min (n % 146097 / 36524) 3) % 1461 / 365) 3,
    (n % 146097 - 36524 * min (n % 146097 / 36524) 3) % 1461 -
      365 * min ((n % 146097 - 36524 * min (n % 146097 / 36524) 3) % 1461 / 365) 3,
    Nat.min_le_right .., ?_, Nat.min_le_right .., rfl, ?_⟩
  · omega
  · -- a day that is cut off to be the last of its year is the extra day of a leap year
    rw [isLeap_eq_true_iff]
    omega

/-- The days before a year, by the same periods. -/
theorem daysBeforeYear_eq {a c q y : Nat} (hc : c ≤ 3) (hq : q ≤ 24) (hy : y ≤ 3) :
    daysBeforeYear (400 * a + 100 * c + 4 * q + y + 1) =
      146097 * a + 36524 * c + 1461 * q + 365 * y := by
  rw [daysBeforeYear, Nat.add_sub_cancel]
  omega

end Date

/-! ### Months -/

/-- The days of a year. -/
theorem daysBefore_monthLengths (leap : Bool) :
    daysBefore (monthLengths leap) 12 = if leap then 366 else 365 := by
  cases leap <;> rfl

/-- A day is in one of the periods whose lengths are given, if these reach up to it. -/
theorem locate_spec {lengths : List Nat} {n : Nat}
    (inside : n < daysBefore lengths lengths.length) :
    ∃ length, lengths[(locate lengths n).1]? = some length ∧ (locate lengths n).2 < length ∧
      daysBefore lengths (locate lengths n).1 + (locate lengths n).2 = n := by
  induction lengths generalizing n with
  | nil => cases inside
  | cons length lengths ih =>
    rw [locate]
    by_cases first : n < length
    · rw [if_pos first]
      exact ⟨length, rfl, first, Nat.zero_add n⟩
    · rw [if_neg first]
      rw [List.length_cons, daysBefore] at inside
      obtain ⟨found, at_, below, total⟩ := ih (n := n - length) (by omega)
      refine ⟨found, by rw [List.getElem?_cons_succ, at_], below, ?_⟩
      rw [daysBefore]
      omega

namespace Date

theorem locate_year (n : Nat) :
    (yearOf n).2 < daysBefore (monthLengths (isLeap (yearOf n).1)) 12 := by
  obtain ⟨a, c, q, y, d, hc, hq, hy, found, -, bound, last⟩ := yearOf_eq n
  rw [found, daysBefore_monthLengths]
  split
  · omega
  · rename_i common
    have : d ≠ 365 := fun h => common (last h)
    omega

theorem ofDayNumber_eq (n : Nat) : ofDayNumber n =
    ⟨(yearOf n).1, (locate (monthLengths (isLeap (yearOf n).1)) (yearOf n).2).1 + 1,
      (locate (monthLengths (isLeap (yearOf n).1)) (yearOf n).2).2 + 1⟩ := rfl

/-- **The number of the date of a day** is that of the day. -/
theorem dayNumber_ofDayNumber (n : Nat) : (ofDayNumber n).dayNumber = n := by
  obtain ⟨length, -, -, total⟩ := locate_spec (locate_year n)
  obtain ⟨a, c, q, y, d, hc, hq, hy, found, sum, -⟩ := yearOf_eq n
  have before : daysBeforeYear (yearOf n).1 + (yearOf n).2 = n := by
    rw [found, daysBeforeYear_eq hc hq hy, ← sum]
  simp only [ofDayNumber_eq, dayNumber, Nat.add_sub_cancel]
  rw [Nat.add_assoc, total, before]

/-- **The date of a day** is one of the calendar. -/
theorem valid_ofDayNumber {n : Nat} (lt : n < dayLimit) : (ofDayNumber n).Valid := by
  obtain ⟨length, at_, below, -⟩ := locate_spec (locate_year n)
  obtain ⟨a, c, q, y, d, hc, hq, hy, found, sum, -⟩ := yearOf_eq n
  have month : (locate (monthLengths (isLeap (yearOf n).1)) (yearOf n).2).1 < 12 :=
    (List.getElem?_eq_some_iff.1 at_).1
  rw [ofDayNumber_eq]
  refine ⟨?_, ⟨Nat.succ_pos _, month⟩, Nat.succ_pos _, ?_⟩
  · simp only [found, lastYear]
    rw [dayLimit] at lt
    omega
  · simp only [monthLength, Nat.add_sub_cancel, at_, Option.getD_some]
    exact below

/-! ### One date for each day -/

/-- A year is over when the next one starts. -/
theorem daysBeforeYear_succ {year : Nat} (pos : 0 < year) : daysBeforeYear (year + 1) =
    daysBeforeYear year + daysBefore (monthLengths (isLeap year)) 12 := by
  obtain ⟨n, rfl⟩ := Nat.exists_eq_succ_of_ne_zero (Nat.ne_of_gt pos)
  have less : n / 100 ≤ n / 4 := Nat.div_le_div_left (by decide) (by decide)
  rw [daysBefore_monthLengths, daysBeforeYear, daysBeforeYear, Nat.add_sub_cancel,
    Nat.succ_eq_add_one, Nat.add_sub_cancel, Nat.succ_div, Nat.succ_div, Nat.succ_div]
  simp only [isLeap_eq_true_iff, Nat.dvd_iff_mod_eq_zero]
  -- four years, a century and four centuries each end with the year or do not
  split <;> split <;> split <;> split <;> omega

theorem daysBeforeYear_mono {year later : Nat} (pos : 0 < year) (le : year ≤ later) :
    daysBeforeYear year ≤ daysBeforeYear later := by
  induction le with
  | refl => exact Nat.le_refl _
  | step le ih =>
    rw [daysBeforeYear_succ (Nat.lt_of_lt_of_le pos le)]
    exact Nat.le_trans ih (Nat.le_add_right ..)

/-- A month is over when a later one of the year starts, or the next year. -/
theorem daysBefore_add_le (leap : Bool) :
    ∀ month < 12, ∀ later ≤ 12, month < later →
      daysBefore (monthLengths leap) month + ((monthLengths leap)[month]?).getD 0 ≤
        daysBefore (monthLengths leap) later := by
  cases leap <;> decide

variable {date other : Date}

/-- The days of a year up to a date of the calendar. -/
theorem Valid.lt_of_month_lt (valid : date.Valid) (later : Nat) (le : later ≤ 12)
    (lt : date.month - 1 < later) :
    daysBefore (monthLengths (isLeap date.year)) (date.month - 1) + (date.day - 1) <
      daysBefore (monthLengths (isLeap date.year)) later := by
  obtain ⟨-, ⟨month, month'⟩, day, day'⟩ := valid
  have past := daysBefore_add_le (isLeap date.year) (date.month - 1) (by omega) later le lt
  rw [monthLength] at day'
  omega

/-- A day of a year lies before every later year. -/
theorem Valid.dayNumber_lt_daysBeforeYear (valid : date.Valid) {later : Nat}
    (lt : date.year < later) : date.dayNumber < daysBeforeYear later := by
  have inYear := valid.lt_of_month_lt 12 (Nat.le_refl 12) (by have := valid.2.1; omega)
  have next := daysBeforeYear_succ valid.1.1
  have mono : daysBeforeYear (date.year + 1) ≤ daysBeforeYear later :=
    daysBeforeYear_mono (Nat.succ_pos date.year) lt
  rw [dayNumber]
  omega

theorem Valid.dayNumber_lt (valid : date.Valid) : date.dayNumber < dayLimit :=
  dayLimit_eq ▸ valid.dayNumber_lt_daysBeforeYear (Nat.lt_succ_of_le valid.1.2)

theorem Valid.year_le (valid : date.Valid) (same : date.dayNumber = other.dayNumber) :
    other.year ≤ date.year := by
  refine Nat.le_of_not_lt fun later => ?_
  have earlier := valid.dayNumber_lt_daysBeforeYear later
  rw [same, dayNumber] at earlier
  omega

theorem Valid.month_le (valid : date.Valid) (valid' : other.Valid) (year : date.year = other.year)
    (same : date.dayNumber = other.dayNumber) : other.month ≤ date.month := by
  refine Nat.le_of_not_lt fun later => ?_
  -- the whole month of the one day would lie before that of the other
  have month := valid.2.1
  have month' := valid'.2.1
  have inMonth := valid.lt_of_month_lt (other.month - 1) (by omega) (by omega)
  rw [dayNumber, dayNumber, ← year] at same
  omega

/-- **A day has one date**, among those of the calendar. -/
theorem Valid.dayNumber_inj (valid : date.Valid) (valid' : other.Valid)
    (same : date.dayNumber = other.dayNumber) : date = other := by
  have year := Nat.le_antisymm (valid'.year_le same.symm) (valid.year_le same)
  have month := Nat.le_antisymm (valid'.month_le valid year.symm same.symm)
    (valid.month_le valid' year same)
  obtain ⟨-, -, day, -⟩ := valid
  obtain ⟨-, -, day', -⟩ := valid'
  rw [dayNumber, dayNumber, year, month] at same
  have day : date.day = other.day := by omega
  cases date
  cases other
  cases year
  cases month
  cases day
  rfl

end Date

/-! ### Times of day -/

namespace Clock

theorem valid_ofMicros {n : Nat} (lt : n < dayMicros) : (ofMicros n).Valid := by
  rw [dayMicros] at lt
  refine ⟨?_, Nat.mod_lt _ (by decide), Nat.mod_lt _ (by decide), Nat.mod_lt _ (by decide)⟩
  change n / 3600000000 < 24
  omega

theorem micros_ofMicros (n : Nat) : (ofMicros n).micros = n := by
  simp only [micros, ofMicros]
  omega

theorem micros_lt {clock : Clock} (valid : clock.Valid) : clock.micros < dayMicros := by
  obtain ⟨hour, minute, second, micro⟩ := valid
  rw [micros, dayMicros]
  omega

theorem ofMicros_micros {clock : Clock} (valid : clock.Valid) : ofMicros clock.micros = clock := by
  obtain ⟨hour, minute, second, micro⟩ := clock
  obtain ⟨hour_lt, minute_lt, second_lt, micro_lt⟩ := valid
  simp only [ofMicros, micros, Clock.mk.injEq] at *
  omega

end Clock

/-! ### Moments -/

theorem firstFlaw_eq_none {date : Date} {clock : Clock} (dated : date.Valid)
    (timed : clock.Valid) : firstFlaw date clock = none := by
  obtain ⟨⟨year, year'⟩, ⟨month, month'⟩, day, day'⟩ := dated
  obtain ⟨hour, minute, second, micro⟩ := timed
  rw [firstFlaw, if_neg (by omega), if_neg (by omega), if_neg (by omega), if_neg (by omega),
    if_neg (by omega), if_neg (by omega), if_neg (by omega)]

/-- Nothing is out of range in a date of the calendar with a time of day. -/
theorem valid_of_firstFlaw {date : Date} {clock : Clock} (sound : firstFlaw date clock = none) :
    date.Valid ∧ clock.Valid := by
  simp only [firstFlaw] at sound
  split_ifs at sound
  rw [Date.Valid, Clock.Valid]
  omega

/-- A time of day of a date of the calendar lies in the years 1 to 9999. -/
theorem micros_lt_of_valid {date : Date} {clock : Clock} (dated : date.Valid)
    (timed : clock.Valid) :
    date.dayNumber * Clock.dayMicros + clock.micros < dayLimit * Clock.dayMicros :=
  calc date.dayNumber * Clock.dayMicros + clock.micros
      < date.dayNumber * Clock.dayMicros + Clock.dayMicros :=
        Nat.add_lt_add_left (Clock.micros_lt timed) _
    _ = (date.dayNumber + 1) * Clock.dayMicros := (Nat.succ_mul ..).symm
    _ ≤ dayLimit * Clock.dayMicros := Nat.mul_le_mul_right _ dated.dayNumber_lt

theorem Moment.ofMicros?_micros (moment : Moment) : ofMicros? moment.micros = some moment := by
  rw [ofMicros?, dif_pos ⟨Int.natCast_nonneg _, moment.micros_lt⟩]
  rfl

theorem Moment.ofFields_eq_ok {date : Date} {clock : Clock} {moment : Moment}
    (dated : date.Valid) (timed : clock.Valid)
    (total : date.dayNumber * Clock.dayMicros + clock.micros = moment.micros) :
    ofFields date clock = .ok moment := by
  rw [ofFields, firstFlaw_eq_none dated timed]
  -- the number is made opaque first, or the products in it are computed
  generalize date.dayNumber * Clock.dayMicros + clock.micros = n at total ⊢
  subst total
  simp only [ofMicros?_micros]

/-- **The moment with the date and the time of day** of a moment is that moment. -/
theorem Moment.ofFields_date_clock (moment : Moment) :
    ofFields moment.date moment.clock = .ok moment := by
  have dated : moment.date.Valid := Date.valid_ofDayNumber moment.day.number_lt
  have timed : moment.clock.Valid := Clock.valid_ofMicros (Nat.mod_lt _ (by decide))
  refine ofFields_eq_ok dated timed ?_
  rw [date, Date.dayNumber_ofDayNumber, clock, Clock.micros_ofMicros, Nat.div_add_mod']

/-- A date of the calendar and a time of day are those of a moment. -/
theorem Moment.exists_ofFields {date : Date} {clock : Clock} (dated : date.Valid)
    (timed : clock.Valid) : ∃ moment, ofFields date clock = .ok moment ∧
      date.dayNumber * Clock.dayMicros + clock.micros = moment.micros := by
  obtain ⟨moment, total⟩ : ∃ moment : Moment,
      date.dayNumber * Clock.dayMicros + clock.micros = moment.micros :=
    ⟨⟨_, micros_lt_of_valid dated timed⟩, rfl⟩
  exact ⟨moment, ofFields_eq_ok dated timed total, total⟩

/-- **The fields of a moment** are a date of the calendar and a time of day, which are counted
together. -/
theorem Moment.ofFields_eq_ok_iff {date : Date} {clock : Clock} {moment : Moment} :
    ofFields date clock = .ok moment ↔ date.Valid ∧ clock.Valid ∧
      date.dayNumber * Clock.dayMicros + clock.micros = moment.micros := by
  refine ⟨fun made => ?_, fun ⟨dated, timed, total⟩ => ofFields_eq_ok dated timed total⟩
  have sound : firstFlaw date clock = none := by
    cases flaw : firstFlaw date clock with
    | none => rfl
    | some flaw =>
      simp only [ofFields, flaw] at made
      cases made
  obtain ⟨dated, timed⟩ := valid_of_firstFlaw sound
  obtain ⟨other, made', total⟩ := exists_ofFields dated timed
  rw [made'] at made
  cases made
  exact ⟨dated, timed, total⟩

/-- A moment shows the date and the time of day from which it is made. -/
theorem Moment.date_clock_of_ofFields {date : Date} {clock : Clock} {moment : Moment}
    (made : ofFields date clock = .ok moment) : moment.date = date ∧ moment.clock = clock := by
  obtain ⟨dated, timed, total⟩ := ofFields_eq_ok_iff.1 made
  obtain ⟨days, rest⟩ : moment.micros / Clock.dayMicros = date.dayNumber ∧
      moment.micros % Clock.dayMicros = clock.micros := by
    rw [Nat.div_mod_unique (by decide), ← total, Nat.add_comm, Nat.mul_comm]
    exact ⟨rfl, Clock.micros_lt timed⟩
  refine ⟨(Date.valid_ofDayNumber moment.day.number_lt).dayNumber_inj dated ?_, ?_⟩
  · rw [Date.dayNumber_ofDayNumber]
    exact days
  · rw [Moment.clock, rest, Clock.ofMicros_micros timed]

/-- The moment with the date of a day and no time of day is its midnight. -/
theorem Day.ofFields_midnight (day : Day) :
    Moment.ofFields day.date ⟨0, 0, 0, 0⟩ = .ok day.midnight := by
  refine Moment.ofFields_eq_ok (Date.valid_ofDayNumber day.number_lt) (by decide) ?_
  rw [date, Date.dayNumber_ofDayNumber]
  simp only [Clock.micros, midnight, Nat.zero_mul, Nat.add_zero]

end DocumentFilter
