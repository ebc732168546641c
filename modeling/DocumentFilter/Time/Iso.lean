import DocumentFilter.Document.Text
import DocumentFilter.Text.Blank
import DocumentFilter.Text.Digit
import DocumentFilter.Time.Moment

/-!
# Reading ISO 8601

A timestamp is a date, or a date, any one character and a time of day, which may end in an
offset. Each part has a basic form without and an extended form with separators:

* the date `YYYYMMDD` or `YYYY-MM-DD`, or the day of a week `YYYYWwwD` or `YYYY-Www-D`,
  where a missing day is the Monday;
* the time `HHMMSS` or `HH:MM:SS`, cut behind the hours or the minutes or extended by a
  fraction of a second, whose digits beyond six are dropped;
* the offset, a sign and such a time, less than a day, or the letter `Z`.

More is taken than these forms. A fraction may follow the hours or the minutes, and behind
the seconds it needs no other mark than what separates the fields, which is nothing in the
basic form. In front of an offset a time need not be read to its end: one character of one
byte may be left behind its last field, and anything behind the digits of a fraction. And a
zero character passes for the end of the text. An offset of less than a second is none.

Blanks around it are dropped, and a final `Z` stands for the offset `+00:00`. A text of
another form is refused for its form; of several values out of range the offset is
reported before the date, and the date before the time.

* `DocumentFilter.Iso.form?`: the parts of a text of the right form;
* `DocumentFilter.Timestamp.ofText`: the timestamp that a text denotes;
* `DocumentFilter.Moment.ofText`: the instant that it denotes.
-/

namespace DocumentFilter

namespace Iso

/-! ### Parts -/

/-- The number that the next `n` digits denote, and what comes after them. -/
def digits? (n : Nat) (cs : List Char) : Option (Nat × List Char) :=
  if cs.length < n then none
  else ((cs.take n).mapM Text.asciiDigit?).map fun ds => (Decimal.value ds, cs.drop n)

/-- The end of a date: nothing may follow. -/
def ending (date : Option Date) : List Char → Option Date
  | [] => date
  | _ => none

/-- What follows the dash that separates two parts of a date, if dashes do. -/
def dash? (dashed : Bool) (cs : List Char) : Option (List Char) :=
  match dashed, cs with
  | false, cs => some cs
  | true, '-' :: rest => some rest
  | true, _ => none

/-- The day of a week, from behind the `W`; a missing day is the Monday. -/
def weekDay? (dashed : Bool) (year : Nat) (cs : List Char) : Option Date := do
  let (week, cs) ← digits? 2 cs
  if cs = [] then weekDate? year week 1
  else
    let cs ← dash? dashed cs
    let (day, cs) ← digits? 1 cs
    ending (weekDate? year week day) cs

/-- A date from behind the year. -/
def monthDay? (dashed : Bool) (year : Nat) : List Char → Option Date
  | 'W' :: cs => weekDay? dashed year cs
  | cs => do
    let (month, cs) ← digits? 2 cs
    let cs ← dash? dashed cs
    let (day, cs) ← digits? 2 cs
    ending (some ⟨year, month, day⟩) cs

/-- A date, in range or not. -/
def date? (cs : List Char) : Option Date := do
  match ← digits? 4 cs with
  | (year, '-' :: cs) => monthDay? true year cs
  | (year, cs) => monthDay? false year cs

/-- The microseconds of a fraction of a second: one digit or more, the first six of which
count. -/
def fraction? (cs : List Char) : Option Nat :=
  if cs = [] then none
  else (cs.mapM Text.asciiDigit?).map fun ds => Decimal.value ((ds ++ [0, 0, 0, 0, 0]).take 6)

/-- **A fraction of a second** in microseconds, from behind its mark, and what is left: the
first six characters must be digits, or all if there are fewer, and digits after them are
passed over. -/
def micros? (cs : List Char) : Option (Nat × List Char) :=
  ((cs.take 6).mapM Text.asciiDigit?).map fun ds =>
    (Decimal.value ((ds ++ [0, 0, 0, 0, 0]).take 6),
      (cs.drop 6).dropWhile fun c => (Text.asciiDigit? c).isSome)

/-- Hours, minutes and seconds as far as they are read, the microseconds, and what is left. -/
structure Fields where
  numbers : List Nat
  micro : Nat
  left : List Char

/-- The fields with one more in front of them. -/
def Fields.behind (number : Nat) (fields : Fields) : Fields :=
  { fields with numbers := number :: fields.numbers }

/-- **The fields of a time of day**, at most as many as the first argument says. Whether colons
separate them is decided by what follows the first, where it is not yet known. A single
character of one byte behind a field ends them, whatever it is, and a point or a comma
starts the fraction. -/
def fields? : Nat → Option Bool → List Char → Option Fields
  | 0, _, cs => (micros? cs).map fun (micro, left) => ⟨[], micro, left⟩
  | more + 1, colons, cs => do
    match ← digits? 2 cs with
    | (number, []) => some ⟨[number], 0, []⟩
    | (number, mark :: rest) =>
      let colons := colons.getD (mark = ':')
      if rest = [] ∧ mark.toNat < 0x80 then some ⟨[number], 0, [mark]⟩
      else if mark = '.' ∨ mark = ',' then
        (micros? rest).map fun (micro, left) => ⟨[number], micro, left⟩
      else if colons then
        if mark = ':' then (fields? more (some true) rest).map (Fields.behind number) else none
      else (fields? more (some false) (mark :: rest)).map (Fields.behind number)

/-- The time of day with the given fields; those that are missing are zero. -/
def Fields.clock (fields : Fields) : Clock :=
  ⟨fields.numbers.getD 0 0, fields.numbers.getD 1 0, fields.numbers.getD 2 0, fields.micro⟩

/-- A time of day, in range or not, and what is left behind it. -/
def clock? (cs : List Char) : Option (Clock × List Char) :=
  (fields? 3 none cs).map fun fields => (fields.clock, fields.left)

/-- The end of a text, for which a zero character passes. -/
def isEnd : List Char → Bool
  | [] => true
  | c :: _ => c = '\x00'

/-- A character that starts an offset. -/
def isZoneMark (c : Char) : Bool :=
  c = '+' || c = '-' || c = 'Z'

/-- How far a clock is ahead that is ahead by a time of day: not at all, if that is less than a
second. -/
def ahead (size : Clock) : Int :=
  if size.hour = 0 ∧ size.minute = 0 ∧ size.second = 0 then 0 else size.micros

/-- **A time of day and the offset behind it**, where there is one. -/
def time? (cs : List Char) : Option (Clock × Option Int) := do
  let (clock, left) ← clock? (cs.takeWhile fun c => !isZoneMark c)
  match cs.dropWhile fun c => !isZoneMark c with
  | [] => if isEnd left then some (clock, none) else none
  | 'Z' :: rest => if isEnd rest then some (clock, some 0) else none
  | sign :: rest =>
    let (size, left) ← clock? rest
    if isEnd left then some (clock, some (if sign = '-' then -ahead size else ahead size))
    else none

/-- How many characters of a text are its date. The forms of the day of a week can be cut
in several ways: a digit behind a dash belongs to the date, unless one more digit follows
the next character; and of the digits behind a week without dashes the first belongs to
the date if their number says that the time is left whole. -/
def dateLength (cs : List Char) : Nat :=
  match cs.drop 4 with
  | '-' :: 'W' :: _ :: _ :: '-' :: _ :: c :: _ =>
    if (Text.asciiDigit? c).isSome then 8 else 10
  | '-' :: 'W' :: _ :: _ :: '-' :: _ => 10
  | '-' :: 'W' :: _ => 8
  | '-' :: _ => 10
  | 'W' :: _ :: _ :: rest =>
    let ending := 7 + (rest.takeWhile fun c => (Text.asciiDigit? c).isSome).length
    if ending < 9 then ending else if ending % 2 = 0 then 7 else 8
  | _ => 8

/-- The parts of a text. -/
structure Form where
  date : Date
  clock : Clock
  offset : Option Int

/-- **The parts of a text** of the right form: a date alone is its midnight. -/
def form? (cs : List Char) : Option Form := do
  let date ← date? (cs.take (dateLength cs))
  match cs.drop (dateLength cs) with
  | [] => some ⟨date, ⟨0, 0, 0, 0⟩, none⟩
  | _ :: cs =>
    let (clock, offset) ← time? cs
    some ⟨date, clock, offset⟩

/-- A text in which the final `Z` is written as an offset. -/
def numericZone (cs : List Char) : List Char :=
  match cs.getLast? with
  | some 'Z' | some 'z' => cs.dropLast ++ "+00:00".toList
  | _ => cs

/-! ### Refusals -/

/-- Why a document is no timestamp. -/
inductive Error
  /-- It is a document of another kind than a text. -/
  | notText (doc : Document)
  /-- It has nothing but blanks. -/
  | blank
  /-- It has another form; the text is the one that was read. -/
  | form (text : String)
  /-- The offset, in microseconds, is a day or more. -/
  | offset (micros : Int)
  /-- A field of its date or time is out of range. -/
  | field (flaw : FieldFlaw)
  /-- The instant lies outside of the years 1 to 9999. -/
  | instant (text : String)

/-- A span of time in days, seconds and microseconds, of which only the days can be
negative. -/
def spanText (micros : Int) : String :=
  let days := micros / 86400000000
  let seconds := micros % 86400000000 / 1000000
  let rest := micros % 1000000
  let parts :=
    (if days = 0 then [] else ["days=" ++ Decimal.intString days]) ++
    (if seconds = 0 then [] else ["seconds=" ++ Decimal.intString seconds]) ++
    (if rest = 0 then [] else ["microseconds=" ++ Decimal.intString rest])
  "datetime.timedelta(" ++ (if parts = [] then "0" else String.intercalate ", " parts) ++ ")"

/-- The words for a refusal. -/
def Error.message : Error → String
  | .notText doc => "could not convert date: " ++ doc.display ++ " is not a string"
  | .blank => "could not convert date: empty string"
  | .form text => "Invalid isoformat string: " ++ Text.quoted text
  | .offset micros =>
    "offset must be a timedelta strictly between -timedelta(hours=24) and " ++
      "timedelta(hours=24), not " ++ spanText micros ++ "."
  | .field flaw => flaw.message
  | .instant text => "could not convert date: " ++ Text.quoted text ++ " is out of range"

/-- An offset of less than a day in either direction. -/
def OffsetInRange (offset : Option Int) : Prop :=
  ∀ micros ∈ offset, micros.natAbs < Clock.dayMicros

instance (offset : Option Int) : Decidable (OffsetInRange offset) :=
  match offset with
  | none => isTrue (by simp [OffsetInRange])
  | some micros => decidable_of_iff (micros.natAbs < Clock.dayMicros) (by simp [OffsetInRange])

/-- The timestamp with the given parts. -/
def Form.timestamp (form : Form) : Except Error Timestamp :=
  if OffsetInRange form.offset then
    match Moment.ofFields form.date form.clock with
    | .ok wall => .ok ⟨wall, form.offset⟩
    | .error flaw => .error (.field flaw)
  else .error (.offset (form.offset.getD 0))

end Iso

/-- **The timestamp that a text denotes.** -/
def Timestamp.ofText (text : String) : Except Iso.Error Timestamp :=
  match Text.strip text.toList with
  | [] => .error .blank
  | cs =>
    match Iso.form? (Iso.numericZone cs) with
    | none => .error (.form (String.ofList (Iso.numericZone cs)))
    | some form => form.timestamp

namespace Moment

/-- **The instant that a text denotes.** -/
def ofText (text : String) : Except Iso.Error Moment :=
  match Timestamp.ofText text with
  | .error error => .error error
  | .ok t =>
    match t.instant? with
    | some moment => .ok moment
    | none => .error (.instant text)

/-- The instant that a document denotes. -/
def ofDocument : Document → Except Iso.Error Moment
  | .string text => ofText text
  | doc => .error (.notText doc)

/-- The instant that a text denotes, if any. -/
def ofText? (text : String) : Option Moment :=
  (ofText text).toOption

end Moment

end DocumentFilter
