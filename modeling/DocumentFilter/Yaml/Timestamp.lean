import DocumentFilter.Time.Iso
import DocumentFilter.Yaml.Cursor

/-!
# Timestamps in YAML

A timestamp of a YAML text is a date, `YYYY-MM-DD`, or a date and a time, `HH:MM:SS`, joined
by a letter `T` or by blanks, with a fraction of a second and an offset of hours and
minutes if need be. Months, days and hours may have a single digit.

* `DocumentFilter.Yaml.timestampText?`: the parts of a timestamp, in range or not.
-/

namespace DocumentFilter.Yaml

/-- The parts of a timestamp: a date, and maybe a time and an offset in microseconds. -/
structure TimestampText where
  date : Date
  time : Option (Clock × Option Int)

/-- The number that one or two digits denote, and what comes after them. -/
def oneOrTwoDigits? (cs : List Char) : Option (Nat × List Char) :=
  (Iso.digits? 2 cs).or (Iso.digits? 1 cs)

/-- What comes after a character. -/
def after? (x : Char) : List Char → Option (List Char)
  | c :: rest => if c = x then some rest else none
  | [] => none

/-- What comes after the joint of a date and a time: a letter, or blanks. -/
def afterJoint? : List Char → Option (List Char)
  | [] => none
  | c :: rest =>
    if c = 'T' ∨ c = 't' then some rest
    else if isBlank c then some (rest.dropWhile isBlank)
    else none

/-- The microseconds of a fraction of a second, whose digits beyond six are dropped, and
what comes after it. -/
def fractionText (cs : List Char) : Nat × List Char :=
  match cs with
  | '.' :: rest =>
    let isDigit := fun c => (Text.asciiDigit? c).isSome
    let ds := (rest.takeWhile isDigit).filterMap Text.asciiDigit?
    (Decimal.value ((ds ++ [0, 0, 0, 0, 0, 0]).take 6), rest.dropWhile isDigit)
  | cs => (0, cs)

/-- The hours and minutes of an offset, in microseconds. -/
def offsetSize? (cs : List Char) : Option Int := do
  let (hour, cs) ← oneOrTwoDigits? cs
  if cs = [] then some ((hour : Int) * 3600000000)
  else
    let (minute, cs) ← Iso.digits? 2 (← after? ':' cs)
    if cs = [] then some (((hour * 60 + minute : Nat) : Int) * 60000000) else none

/-- The offset at the end of a time: nothing, or blanks and a letter or a signed time. -/
def offsetText? (cs : List Char) : Option (Option Int) :=
  if cs = [] then some none
  else
    match cs.dropWhile isBlank with
    | ['Z'] => some (some 0)
    | '+' :: rest => (offsetSize? rest).map some
    | '-' :: rest => (offsetSize? rest).map fun size => some (-size)
    | _ => none

/-- The time and the offset of a timestamp. -/
def timeText? (cs : List Char) : Option (Clock × Option Int) := do
  let (hour, cs) ← oneOrTwoDigits? cs
  let (minute, cs) ← Iso.digits? 2 (← after? ':' cs)
  let (second, cs) ← Iso.digits? 2 (← after? ':' cs)
  let (micro, cs) := fractionText cs
  return (⟨hour, minute, second, micro⟩, ← offsetText? cs)

/-- **The parts of a timestamp.** -/
def timestampText? (cs : List Char) : Option TimestampText := do
  let (year, cs) ← Iso.digits? 4 cs
  let (month, cs) ← oneOrTwoDigits? (← after? '-' cs)
  let (day, cs) ← oneOrTwoDigits? (← after? '-' cs)
  if cs = [] then some ⟨⟨year, month, day⟩, none⟩
  else
    let time ← timeText? (← afterJoint? cs)
    return ⟨⟨year, month, day⟩, some time⟩

/-- A text without a line feed at its end, which does not count where the look of a text does. -/
def dropLineFeed (cs : List Char) : List Char :=
  if cs.getLast? = some '\n' then cs.dropLast else cs

end DocumentFilter.Yaml
