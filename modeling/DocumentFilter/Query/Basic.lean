import DocumentFilter.Document.Basic

/-!
# Path queries

A path query is a sequence of steps into a document. A **key** goes from an object to one
of its fields; an **aggregate** goes from an array to its elements that have every field
of a shape, each of which becomes a branch of its own.

Names are written between double quotes, with a backslash before a quote or a backslash.
The canonical text of a query writes no other escape, so it says no more than the steps.

* `DocumentFilter.Query.text`: the canonical text of a query;
* `DocumentFilter.Query.WellFormed`: the sequences of steps that have a text to read.
-/

namespace DocumentFilter

/-- A step of a path query. -/
inductive Step
  /-- Descend into the field of an object. -/
  | key (name : String)
  /-- Select the elements of an array that have every field named. -/
  | aggregate (shape : List String)
deriving DecidableEq

namespace Step

/-- An aggregate step. -/
def isAggregate : Step → Bool
  | .key _ => false
  | .aggregate _ => true

/-- How a character stands between the quotes of a name. -/
def nameChar (c : Char) : List Char :=
  if c = '"' ∨ c = '\\' then ['\\', c] else [c]

/-- A name between quotes. -/
def nameChars (name : List Char) : List Char :=
  '"' :: name.flatMap nameChar ++ ['"']

/-- The names of a shape after its first, each behind a comma. -/
def shapeChars : List String → List Char
  | [] => []
  | name :: rest => ',' :: nameChars name.toList ++ shapeChars rest

/-- The text of a step. -/
def chars : Step → List Char
  | .key name => nameChars name.toList
  | .aggregate [] => ['|', '=', '\x7b', '\x7d']
  | .aggregate (name :: rest) =>
    ['|', '=', '\x7b'] ++ nameChars name.toList ++ shapeChars rest ++ ['\x7d']

end Step

/-- A parsed path query: the text it was given as, and its steps. -/
structure Query where
  raw : String
  steps : List Step
deriving DecidableEq

namespace Query

/-- The text of the steps after the first: a dot comes before a key. -/
def tailChars : List Step → List Char
  | [] => []
  | .key name :: rest => '.' :: Step.chars (.key name) ++ tailChars rest
  | .aggregate shape :: rest => Step.chars (.aggregate shape) ++ tailChars rest

/-- The text of a sequence of steps. -/
def stepsChars : List Step → List Char
  | [] => []
  | step :: rest => step.chars ++ tailChars rest

/-- **The canonical text** of a query. -/
def text (query : Query) : String :=
  String.ofList (stepsChars query.steps)

/-- A query with an aggregate step. -/
def hasAggregate (query : Query) : Bool :=
  query.steps.any Step.isAggregate

/-- A step whose names can be written: none of them is empty, and a shape has at least one
name and none twice. -/
def WellFormedStep : Step → Prop
  | .key name => name ≠ ""
  | .aggregate shape => shape ≠ [] ∧ (∀ name ∈ shape, name ≠ "") ∧ shape.Nodup

/-- **The sequences of steps that a query can have**: the first is a key, at most one is an
aggregate, and every step is well formed. -/
def WellFormed (steps : List Step) : Prop :=
  (∃ name rest, steps = .key name :: rest) ∧ (steps.filter Step.isAggregate).length ≤ 1 ∧
    ∀ step ∈ steps, WellFormedStep step

end Query

end DocumentFilter
