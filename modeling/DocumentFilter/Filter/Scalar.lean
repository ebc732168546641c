import DocumentFilter.Document.Text
import DocumentFilter.Number.Reader
import DocumentFilter.Time.Iso

/-!
# Scalars

A comparison takes both of its sides for numbers, or both for dates, or else compares
their texts. What a document can be taken for is its scalar: a number is a number, a text
is a number if it denotes one and else a date if it denotes one, and everything else is
its text alone. Objects and arrays have no scalar.

An integer of a document is taken to be one that was read, which has no more digits than are written
(`DocumentFilter.Number.isWritable`), so every number has a text here.

* `DocumentFilter.Scalar.ofDocument`, `DocumentFilter.Scalar.ofText`: what is compared;
* `DocumentFilter.Scalar.same`, `DocumentFilter.Scalar.below?`: equality and order.
-/

namespace DocumentFilter

/-- What a scalar can be taken for. -/
inductive Sense
  | number (n : Number)
  | date (moment : Moment)
  | plain
deriving DecidableEq

/-- A text, and what it can be taken for. -/
structure Scalar where
  sense : Sense
  text : String
deriving DecidableEq

namespace Scalar

/-- The scalar of a text. -/
def ofText (text : String) : Scalar :=
  match Number.ofText? text with
  | some n => ⟨.number n, text⟩
  | none =>
    match Moment.ofText? text with
    | some moment => ⟨.date moment, text⟩
    | none => ⟨.plain, text⟩

/-- **The scalar of a document**; the kind of one that has none. -/
def ofDocument : Document → Except Kind Scalar
  | .number n => .ok ⟨.number n, (Document.number n).text⟩
  | .string s => .ok (ofText s)
  | .array _ => .error .array
  | .object _ => .error .object
  | doc => .ok ⟨.plain, doc.text⟩

/-- The words for a document that has no scalar. -/
def refusal (kind : Kind) : String :=
  "cannot coerce " ++ kind.name ++ " for comparison"

/-- **Equality** of scalars: of the values of two numbers or of two dates, and else of the
texts. -/
def same (a b : Scalar) : Bool :=
  match a.sense, b.sense with
  | .number m, .number n => m.same n
  | .date s, .date t => s = t
  | _, _ => a.text = b.text

/-- **Order** of scalars, where there is one: among numbers and among dates. -/
def below? (a b : Scalar) : Option Bool :=
  match a.sense, b.sense with
  | .number m, .number n => some (m.below n)
  | .date s, .date t => some (s.before t)
  | _, _ => none

/-- The word for what a scalar is taken for. -/
def kindName (a : Scalar) : String :=
  match a.sense with
  | .number _ => "number"
  | .date _ => "date"
  | .plain => "string"

end Scalar

end DocumentFilter
