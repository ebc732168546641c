import DocumentFilter.Number.Binary64
import DocumentFilter.Text.Decimal

/-!
# The shortest decimal that reads back

A finite binary64 number is written with as few significant digits as identify it: the
first digit count at which one of the number's two decimal neighbours rounds back to it,
and of two such neighbours the nearer. That the written text reads back is then checked
by the search itself, not argued about afterwards.

The layout of the digits is a record, `DocumentFilter.FloatNotation`: where positional
notation ends, how wide an exponent is, and how the values without digits are spelled.

* `DocumentFilter.Binary64.shortest`: the digits and the exponent;
* `DocumentFilter.FloatNotation.text`: a number in a notation.
-/

namespace DocumentFilter

/-- `digits * 10 ^ exponent`. -/
structure DecimalFloat where
  digits : Nat
  exponent : Int
deriving DecidableEq

namespace DecimalFloat

/-- The rational that a decimal denotes. -/
def value (d : DecimalFloat) : Rat :=
  scaleTen (d.digits : Rat) d.exponent

/-- The same decimal without zeros at the end of its digits. -/
def trimmed (d : DecimalFloat) : DecimalFloat :=
  if h : d.digits ≠ 0 ∧ d.digits % 10 = 0 then
    trimmed ⟨d.digits / 10, d.exponent + 1⟩
  else d
termination_by d.digits
decreasing_by omega

end DecimalFloat

/-- The exponent of the greatest power of ten that is at most a positive rational. -/
def floorLogTen (r : Rat) : Int :=
  let guess := (Binary64.decimalLength r.num.toNat : Int) - Binary64.decimalLength r.den
  if scaleTen 1 guess ≤ r then guess else guess - 1

namespace Binary64

/-- The decimals next to a positive rational whose last digit stands for `10 ^ unit`, the
nearer one first; halfway between them, the one with the even last digit. -/
def neighbours (r : Rat) (unit : Int) : List DecimalFloat :=
  let scaled := scaleTen r (-unit)
  let below := scaled.floor.toNat
  if roundEven scaled = below then [⟨below, unit⟩, ⟨below + 1, unit⟩]
  else [⟨below + 1, unit⟩, ⟨below, unit⟩]

/-- A decimal that rounds to the given magnitude. -/
def readsBack (magnitude : Magnitude) (d : DecimalFloat) : Bool :=
  ofDecimal false d.digits d.exponent = .finite false magnitude

/-- The decimals to try for a magnitude, by the number of their digits. -/
def candidates (magnitude : Magnitude) : List DecimalFloat :=
  let r := magnitude.value
  let top := floorLogTen r
  (List.range 17).flatMap fun (n : Nat) => neighbours r (top - (n : Int))

/-- The digits of a magnitude in full, which always denote it exactly. -/
def expansion (magnitude : Magnitude) : DecimalFloat :=
  match magnitude.exponent with
  | .ofNat n => ⟨magnitude.significand * twoPow n, 0⟩
  | .negSucc n => ⟨magnitude.significand * Nat.pow 5 (n + 1), .negSucc n⟩

/-- **The shortest decimal** that rounds to a magnitude. -/
def shortest (magnitude : Magnitude) : DecimalFloat :=
  if magnitude.significand = 0 then ⟨0, 0⟩
  else (((candidates magnitude).find? (readsBack magnitude)).getD (expansion magnitude)).trimmed

end Binary64

/-- The layout of a binary64 number. The exponent meant in the first two fields is that of
the leading digit. -/
structure FloatNotation where
  /-- The least exponent that is written positionally. -/
  least : Int
  /-- The least exponent above `least` that is not. -/
  limit : Int
  /-- The least number of digits of a written exponent. -/
  exponentWidth : Nat
  nan : String
  infinity : String

namespace FloatNotation

/-- Decimal digits laid out positionally, with at least one digit on each side of the
point; `point` counts the digits before it and may be negative. -/
def positional (ds : List Char) (point : Int) : List Char :=
  if point ≤ 0 then
    '0' :: '.' :: List.replicate (-point).toNat '0' ++ ds
  else
    let whole := ds.take point.toNat
    let rest := ds.drop point.toNat
    whole ++ List.replicate (point.toNat - whole.length) '0' ++
      '.' :: (if rest = [] then ['0'] else rest)

/-- Decimal digits laid out as a number from one to ten and an exponent. -/
def scientific (width : Nat) (ds : List Char) (exponent : Int) : List Char :=
  let sign := if exponent < 0 then '-' else '+'
  let mantissa := match ds with
    | d :: e :: rest => d :: '.' :: e :: rest
    | _ => ds
  mantissa ++ 'e' :: sign :: Decimal.padded width exponent.natAbs

/-- The text of a number. -/
def text (f : FloatNotation) : Binary64 → List Char
  | .nan => f.nan.toList
  | .infinite negative => (if negative then ['-'] else []) ++ f.infinity.toList
  | .finite negative magnitude =>
    let d := Binary64.shortest magnitude
    let ds := Decimal.natText d.digits
    let leading := d.exponent + ds.length - 1
    (if negative then ['-'] else []) ++
      if f.least ≤ leading ∧ leading < f.limit then positional ds (leading + 1)
      else scientific f.exponentWidth ds leading

end FloatNotation

end DocumentFilter
