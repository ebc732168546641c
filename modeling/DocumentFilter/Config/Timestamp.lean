import DocumentFilter.Config.Check

/-!
# Timestamps in payloads

A timestamp may be given as a text or as Unix time. The text is `YYYY-MM-DD`, alone or
followed by one of `T`, `t`, space and underscore and a time `HH:MM` or `HH:MM:SS`, the
latter with a fraction of a second if need be, and behind the time an offset: `Z`, `z` or a
sign with `HH:MM` or `HHMM`. A text that is a decimal number is Unix time as well.

Unix time counts seconds from the start of 1970 in universal time; beyond twenty thousand
million it counts milliseconds. It reaches from the year 1600 to the year 9999.

* `DocumentFilter.Check.timestamp`: the timestamp that a value stands for;
* `DocumentFilter.Timestamp.payloadText`: a timestamp as payloads write it.
-/

namespace DocumentFilter

namespace Check

/-! ### Texts -/

/-- A date, `YYYY-MM-DD`, from the front of a text. -/
def datePart? (cs : List Char) : Option (Date × List Char) := do
  let (year, cs) ← Iso.digits? 4 cs
  let cs ← Iso.dash? true cs
  let (month, cs) ← Iso.digits? 2 cs
  let cs ← Iso.dash? true cs
  let (day, cs) ← Iso.digits? 2 cs
  return (⟨year, month, day⟩, cs)

/-- A fraction of a second, from behind its point, in microseconds: the first six digits
count. -/
def fractionPart? (cs : List Char) : Option (Nat × List Char) :=
  let isDigit := fun c => (Text.asciiDigit? c).isSome
  (Iso.fraction? (cs.takeWhile isDigit)).map fun micro => (micro, cs.dropWhile isDigit)

/-- The seconds of a time, from behind the minutes. -/
def secondPart? (hour minute : Nat) : List Char → Option (Clock × List Char)
  | ':' :: cs => do
    let (second, cs) ← Iso.digits? 2 cs
    match cs with
    | '.' :: cs => (fractionPart? cs).map fun (micro, cs) => (⟨hour, minute, second, micro⟩, cs)
    | ',' :: cs => (fractionPart? cs).map fun (micro, cs) => (⟨hour, minute, second, micro⟩, cs)
    | cs => some (⟨hour, minute, second, 0⟩, cs)
  | cs => some (⟨hour, minute, 0, 0⟩, cs)

/-- A time from the front of a text. -/
def timePart? (cs : List Char) : Option (Clock × List Char) := do
  match ← Iso.digits? 2 cs with
  | (hour, ':' :: cs) =>
    let (minute, cs) ← Iso.digits? 2 cs
    secondPart? hour minute cs
  | _ => none

/-- The hours and minutes of an offset, in microseconds. -/
def offsetSize? (cs : List Char) : Option Int := do
  let (hour, cs) ← Iso.digits? 2 cs
  let (minute, cs) ← Iso.digits? 2 (match cs with
    | ':' :: cs => cs
    | cs => cs)
  if cs = [] ∧ hour < 24 ∧ minute < 60 then some ((hour * 60 + minute : Nat) * 60000000)
  else none

/-- The offset behind a time: nothing, a letter for universal time, or a signed time. The
sign may be a minus sign proper. -/
def offsetPart? : List Char → Option (Option Int)
  | [] => some none
  | ['Z'] | ['z'] => some (some 0)
  | '+' :: cs => (offsetSize? cs).map some
  | '-' :: cs => (offsetSize? cs).map fun size => some (-size)
  | '\u2212' :: cs => (offsetSize? cs).map fun size => some (-size)
  | _ => none

/-- The characters that may stand between a date and a time. -/
def isJoint (c : Char) : Bool :=
  c = 'T' || c = 't' || c = ' ' || c = '_'

/-- A date and a time, or a date alone, which stands for its midnight. -/
def calendarText? (cs : List Char) : Option Timestamp := do
  match ← datePart? cs with
  | (date, []) =>
    let wall ← (Moment.ofFields date ⟨0, 0, 0, 0⟩).toOption
    return ⟨wall, none⟩
  | (date, joint :: cs) =>
    if isJoint joint then
      let (clock, cs) ← timePart? cs
      let offset ← offsetPart? cs
      let wall ← (Moment.ofFields date clock).toOption
      return ⟨wall, offset⟩
    else none

/-! ### Unix time -/

/-- The start of 1970, in microseconds from the start of year 1. -/
def unixEpoch : Int := 719162 * 86400000000

/-- The first and the last second that Unix time reaches, 1 January 1600 and 31 December
9999. -/
def inUnixRange (second : Int) : Bool :=
  -11676096000 ≤ second && second ≤ 253402300799

/-- Beyond this, Unix time counts milliseconds. -/
def millisecondsFrom : Nat := 20000000000

/-- The timestamp of a whole Unix time and some microseconds more. -/
def ofUnix? (n : Int) (more : Nat) : Option Timestamp :=
  let (second, micro) :=
    if n.natAbs ≤ millisecondsFrom then (n, (0 : Int)) else (n / 1000, n % 1000 * 1000)
  let micro := micro + more
  let second := second + micro / 1000000
  if inUnixRange second then
    (Moment.ofMicros? (unixEpoch + second * 1000000 + micro % 1000000)).map (⟨·, some 0⟩)
  else none

/-- A rational rounded to the nearest binary64 number; zero where that is infinite. -/
def rounded (r : Rat) : Rat :=
  ((Binary64.nearest r).toRat?).getD 0

/-- The nearest natural number, a half rounded up. -/
def halfUp (r : Rat) : Nat :=
  (r + 1 / 2).floor.toNat

/-- The part of a rational behind the point, without its sign. -/
def fractionOf (r : Rat) : Rat :=
  let size := if r < 0 then -r else r
  size - size.floor

/-- The timestamp of a Unix time that is a binary64 number. The part behind the point
counts forwards from the whole second before the number. -/
def ofUnixFloat? (x : Binary64) : Option Timestamp := do
  let r ← x.toRat?
  ofUnix? r.floor (halfUp (rounded (fractionOf r * 1000000)))

/-- The digits of a decimal number with a point, behind the sign. -/
def decimalParts? (cs : List Char) : Option (List Nat × Option (List Nat)) := do
  let isDigit := fun c => (Text.asciiDigit? c).isSome
  let whole ← (cs.takeWhile isDigit).mapM Text.asciiDigit?
  if whole = [] then none
  else
    match cs.dropWhile isDigit with
    | [] => some (whole, none)
    | '.' :: cs => (cs.mapM Text.asciiDigit?).map fun fraction => (whole, some fraction)
    | _ => none

/-- The sign in front of a decimal number: whether it is negative, and what follows. -/
def decimalSign : List Char → Bool × List Char
  | '-' :: rest => (true, rest)
  | '+' :: rest => (false, rest)
  | cs => (false, cs)

/-- A text that is a decimal number, as Unix time. -/
def unixText? (cs : List Char) : Option Timestamp := do
  let (negative, cs) := decimalSign cs
  match ← decimalParts? cs with
  | (whole, none) =>
    let n : Int := Decimal.value whole
    ofUnix? (if negative then -n else n) 0
  | (whole, some fraction) =>
    let r ← (Binary64.ofDecimal negative (Decimal.value (whole ++ fraction))
      (-(fraction.length : Int))).toRat?
    let r := if (if r < 0 then -r else r) ≤ millisecondsFrom then r else rounded (r / 1000)
    ofUnix? r.floor (halfUp (rounded (rounded (r - r.floor) * 1000000)))

/-! ### Values -/

/-- **The timestamp that a value stands for.** -/
def timestamp : Value → Checked Timestamp
  | .string s =>
    match (calendarText? s.toList).or (unixText? s.toList) with
    | some t => .ok t
    | none => Checked.fault .timestampMalformed
  | .number (.int n) =>
    match ofUnix? n 0 with
    | some t => .ok t
    | none => Checked.fault .timestampOutOfRange
  | .number (.float x) =>
    match ofUnixFloat? x with
    | some t => .ok t
    | none => Checked.fault .timestampOutOfRange
  | .date day => .ok ⟨day.midnight, none⟩
  | .timestamp t => .ok t
  | _ => Checked.fault .timestampExpected

end Check

/-- A timestamp as payloads write it: universal time is `Z`. -/
def Timestamp.payloadText (t : Timestamp) : String :=
  match t.offset with
  | some 0 => String.ofList (t.wall.isoText ++ ['Z'])
  | _ => String.ofList t.isoText

end DocumentFilter
