import DocumentFilter.Text.Decimal
import DocumentFilter.Time.Calendar

/-!
# Moments

A moment is a microsecond of the years 1 to 9999. It serves both as a reading of a clock
on a wall and as an instant of universal time; a `DocumentFilter.Timestamp` is a reading
together with how far that clock is ahead, if this is known.

* `DocumentFilter.Moment.ofFields`: the moment with a given date and time of day;
* `DocumentFilter.Moment.isoText`: its ISO 8601 text;
* `DocumentFilter.Timestamp.instant?`: the instant that a timestamp denotes.
-/

namespace DocumentFilter

/-! ### Times of day -/

/-- A time of day. -/
structure Clock where
  hour : Nat
  minute : Nat
  second : Nat
  micro : Nat
deriving DecidableEq

namespace Clock

/-- The number of microseconds in a day. -/
def dayMicros : Nat := 86400000000

/-- A time of day before midnight, in minutes of sixty seconds. -/
def Valid (clock : Clock) : Prop :=
  clock.hour < 24 ∧ clock.minute < 60 ∧ clock.second < 60 ∧ clock.micro < 1000000

instance (clock : Clock) : Decidable clock.Valid :=
  inferInstanceAs (Decidable (_ ∧ _ ∧ _ ∧ _))

/-- The time since midnight. -/
def micros (clock : Clock) : Nat :=
  ((clock.hour * 60 + clock.minute) * 60 + clock.second) * 1000000 + clock.micro

/-- The time of day that a time since midnight is. -/
def ofMicros (n : Nat) : Clock :=
  ⟨n / 3600000000, n / 60000000 % 60, n / 1000000 % 60, n % 1000000⟩

/-- A fraction of a second in six digits behind a point, unless it is zero. -/
def fractionText (micro : Nat) : List Char :=
  if micro = 0 then [] else '.' :: Decimal.padded 6 micro

/-- A time of day as `HH:MM:SS`, with the fraction of the second unless it is zero. -/
def isoText (clock : Clock) : List Char :=
  Decimal.padded 2 clock.hour ++ ':' :: Decimal.padded 2 clock.minute ++
    ':' :: Decimal.padded 2 clock.second ++ fractionText clock.micro

end Clock

/-- A date as `YYYY-MM-DD`. -/
def Date.isoText (date : Date) : List Char :=
  Decimal.padded 4 date.year ++ '-' :: Decimal.padded 2 date.month ++
    '-' :: Decimal.padded 2 date.day

/-! ### Moments -/

/-- A microsecond of the years 1 to 9999, counted from their start. -/
structure Moment where
  micros : Nat
  micros_lt : micros < dayLimit * Clock.dayMicros
deriving DecidableEq

/-- The first field of a date and a time of day that is out of range. -/
inductive FieldFlaw
  | year (n : Nat)
  | month
  | day
  | hour
  | minute
  | second
  | micro
deriving DecidableEq

/-- The words for a field that is out of range. -/
def FieldFlaw.message : FieldFlaw → String
  | .year n => "year " ++ Decimal.natString n ++ " is out of range"
  | .month => "month must be in 1..12"
  | .day => "day is out of range for month"
  | .hour => "hour must be in 0..23"
  | .minute => "minute must be in 0..59"
  | .second => "second must be in 0..59"
  | .micro => "microsecond must be in 0..999999"

/-- The first field that is out of range, in the order in which they are written. -/
def firstFlaw (date : Date) (clock : Clock) : Option FieldFlaw :=
  if date.year < 1 ∨ lastYear < date.year then some (.year date.year)
  else if date.month < 1 ∨ 12 < date.month then some .month
  else if date.day < 1 ∨ Date.monthLength date.year date.month < date.day then some .day
  else if 24 ≤ clock.hour then some .hour
  else if 60 ≤ clock.minute then some .minute
  else if 60 ≤ clock.second then some .second
  else if 1000000 ≤ clock.micro then some .micro
  else none

namespace Moment

/-- The moment that lies a number of microseconds after the start of year 1. -/
def ofMicros? (n : Int) : Option Moment :=
  if h : 0 ≤ n ∧ n.toNat < dayLimit * Clock.dayMicros then some ⟨n.toNat, h.2⟩ else none

/-- **The moment with the given date and time of day.** -/
def ofFields (date : Date) (clock : Clock) : Except FieldFlaw Moment :=
  match firstFlaw date clock with
  | some flaw => .error flaw
  | none =>
    match ofMicros? (date.dayNumber * Clock.dayMicros + clock.micros : Nat) with
    | some moment => .ok moment
    | none => .error (.year date.year)

/-- The date of a moment. -/
def date (moment : Moment) : Date :=
  Date.ofDayNumber (moment.micros / Clock.dayMicros)

/-- The time of day of a moment. -/
def clock (moment : Moment) : Clock :=
  Clock.ofMicros (moment.micros % Clock.dayMicros)

/-- **The ISO 8601 text** of a moment, `YYYY-MM-DDTHH:MM:SS` with the fraction of the
second unless it is zero. -/
def isoText (moment : Moment) : List Char :=
  moment.date.isoText ++ 'T' :: moment.clock.isoText

/-- The text of an instant: its reading in universal time. -/
def utcText (moment : Moment) : String :=
  String.ofList (moment.isoText ++ "+00:00".toList)

/-- The moment a number of microseconds later, or earlier for a negative number. -/
def shift? (moment : Moment) (micros : Int) : Option Moment :=
  ofMicros? (moment.micros + micros)

/-- The order in time. -/
def before (a b : Moment) : Bool :=
  a.micros < b.micros

end Moment

/-- The start of a day. -/
def Day.midnight (day : Day) : Moment where
  micros := day.number * Clock.dayMicros
  micros_lt := Nat.mul_lt_mul_of_pos_right day.number_lt (by decide)

/-- The day of a moment. -/
def Moment.day (moment : Moment) : Day where
  number := moment.micros / Clock.dayMicros
  number_lt := Nat.div_lt_of_lt_mul (by
    have := moment.micros_lt
    rwa [Nat.mul_comm] at this)

/-! ### Timestamps -/

/-- A reading of a clock, and how many microseconds that clock is ahead of universal
time. -/
structure Timestamp where
  wall : Moment
  offset : Option Int
deriving DecidableEq

/-- The text of an offset: a sign, hours and minutes, and seconds unless they are zero. -/
def offsetText (offset : Int) : List Char :=
  let clock := Clock.ofMicros offset.natAbs
  (if offset < 0 then '-' else '+') ::
    (if clock.second = 0 ∧ clock.micro = 0 then
      Decimal.padded 2 clock.hour ++ ':' :: Decimal.padded 2 clock.minute
    else clock.isoText)

namespace Timestamp

/-- **The instant of a timestamp.** A clock that says nothing about its offset shows
universal time. -/
def instant? (t : Timestamp) : Option Moment :=
  match t.offset with
  | none => some t.wall
  | some offset => t.wall.shift? (-offset)

/-- The text of the instant of a timestamp, where it has one. -/
def utcText? (t : Timestamp) : Option String :=
  t.instant?.map Moment.utcText

/-- The ISO 8601 text of a timestamp. -/
def isoText (t : Timestamp) : List Char :=
  t.wall.isoText ++ (t.offset.map offsetText).getD []

end Timestamp

end DocumentFilter
