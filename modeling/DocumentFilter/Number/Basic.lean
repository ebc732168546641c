import DocumentFilter.Number.Shortest

/-!
# Numbers of a document

A number is an integer of any size or a binary64 number. The two stay apart, `1` and
`1.0` being different documents, but they compare by the exact values that they denote:
no integer is rounded for a comparison. What is not a number compares with nothing.

* `DocumentFilter.Number.place?`: where a number stands on the extended line;
* `DocumentFilter.Number.same`, `DocumentFilter.Number.below`: equality and order.
-/

namespace DocumentFilter

/-- An integer or a binary64 number. -/
inductive Number
  | int (n : Int)
  | float (x : Binary64)
deriving DecidableEq

namespace Number

/-- A place on the line of the rationals with an infinity at each end. -/
inductive Place
  | least
  | rational (r : Rat)
  | greatest
deriving DecidableEq

/-- The place to the left of another. -/
def Place.below : Place → Place → Bool
  | .least, .least => false
  | .least, _ => true
  | .rational _, .least => false
  | .rational r, .rational s => r < s
  | .rational _, .greatest => true
  | .greatest, _ => false

/-- Where a number stands; the non-number stands nowhere. -/
def place? : Number → Option Place
  | .int n => some (.rational n)
  | .float .nan => none
  | .float (.infinite true) => some .least
  | .float (.infinite false) => some .greatest
  | .float (.finite true magnitude) => some (.rational (-magnitude.value))
  | .float (.finite false magnitude) => some (.rational magnitude.value)

/-- **Equal numbers** denote the same value; the non-number is not equal to itself. -/
def same (a b : Number) : Bool :=
  match a.place?, b.place? with
  | some p, some q => p = q
  | _, _ => false

/-- The lesser number of two; the non-number is neither. -/
def below (a b : Number) : Bool :=
  match a.place?, b.place? with
  | some p, some q => p.below q
  | _, _ => false

/-- An integer or a finite number: one that has digits. -/
def hasDigits : Number → Bool
  | .int _ => true
  | .float x => x.isFinite

/-- A number in the given notation for binary64 numbers; integers are written in full. -/
def textIn (f : FloatNotation) : Number → List Char
  | .int n => Decimal.intText n
  | .float x => f.text x

end Number

end DocumentFilter
