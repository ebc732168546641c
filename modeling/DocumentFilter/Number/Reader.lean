import DocumentFilter.Number.Basic
import DocumentFilter.Text.Blank
import DocumentFilter.Text.Digit

/-!
# Reading a number from a text

A text denotes a number when, without the blanks at its ends, it is an optional sign
followed by

* decimal digits, at most 4300 of them: an integer, kept exactly; or
* decimal digits with a point before, after or between them and an optional exponent: the
  nearest binary64 number, unless that is infinite.

The digits may be those of any script. More than 4300 digits are read in the second way,
which they fit as well.

* `DocumentFilter.Number.ofText?`: the number that a text denotes;
* `DocumentFilter.Number.isWritable`: the numbers that are written as texts.
-/

namespace DocumentFilter.Number

/-- The sign in front of a number: whether it is negative, and what follows. -/
def sign : List Char → Bool × List Char
  | '-' :: rest => (true, rest)
  | '+' :: rest => (false, rest)
  | cs => (false, cs)

/-- The values of the digits at the front of a text, and what comes after them. -/
def spanDigits : List Char → List Nat × List Char
  | [] => ([], [])
  | c :: rest =>
    match Text.digit? c with
    | some d => (d :: (spanDigits rest).1, (spanDigits rest).2)
    | none => ([], c :: rest)

/-- The greatest number of digits that are read as an integer, and that one is written with. -/
def integerDigits : Nat := 4300

/-- A sign and digits: an integer. -/
def integer? (cs : List Char) : Option Number :=
  let (negative, cs) := sign cs
  match spanDigits cs with
  | (ds, []) =>
    if ds = [] ∨ integerDigits < ds.length then none
    else
      let n : Int := Decimal.value ds
      some (.int (if negative then -n else n))
  | _ => none

/-- The digits behind a point. -/
def fraction : List Char → List Nat × List Char
  | '.' :: rest => spanDigits rest
  | cs => ([], cs)

/-- The end of a number: nothing, or an exponent. -/
def exponent? : List Char → Option Int
  | [] => some 0
  | c :: rest =>
    if c = 'e' ∨ c = 'E' then
      let (negative, rest) := sign rest
      match spanDigits rest with
      | (ds, []) =>
        if ds = [] then none
        else
          let n : Int := Decimal.value ds
          some (if negative then -n else n)
      | _ => none
    else none

/-- A sign, digits around a point and an exponent: the nearest binary64 number. -/
def decimal? (cs : List Char) : Option Binary64 :=
  let (negative, cs) := sign cs
  let (ds, cs) := spanDigits cs
  let (fs, cs) := fraction cs
  if ds = [] ∧ fs = [] then none
  else (exponent? cs).map fun e =>
    Binary64.ofDecimal negative (Decimal.value (ds ++ fs)) (e - fs.length)

/-- The same, where the number is finite. -/
def rounded? (cs : List Char) : Option Number :=
  match decimal? cs with
  | some x => if x.isFinite then some (.float x) else none
  | none => none

/-- **The number that a text denotes**, if any. -/
def ofText? (s : String) : Option Number :=
  let cs := Text.strip s.toList
  (integer? cs).or (rounded? cs)

/-- **A number that is written as a text**: an integer is if it has no more digits than are read. -/
def isWritable : Number → Bool
  | .int n => (Decimal.digits n.natAbs).length ≤ integerDigits
  | .float _ => true

end DocumentFilter.Number
