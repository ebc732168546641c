import DocumentFilter.Query.Basic

/-!
# Resolving a path query

The steps of a query are followed from the document over a list of candidates: each step
replaces every candidate by the values it leads to from there. A step that leads nowhere
leaves fewer candidates, which is no error.

A sequence built by hand may hold a value where a step belongs. Nothing can be done with
it once a candidate reaches it; when no candidate does, it is never looked at.

* `DocumentFilter.Step.apply`: the values that a step leads to;
* `DocumentFilter.Query.resolve`: the values that a query leads to;
* `DocumentFilter.Query.follow`: the same for a sequence built by hand.
-/

namespace DocumentFilter

namespace Document

/-- An object. -/
def isObject : Document → Bool
  | .object _ => true
  | _ => false

/-- An object that has every field named. -/
def hasShape (shape : List String) (doc : Document) : Bool :=
  doc.isObject && shape.all doc.hasField

end Document

/-- The values that a step leads to from a document, in their order there. -/
def Step.apply : Step → Document → List Document
  | .key name, doc => (doc.field? name).toList
  | .aggregate shape, .array items => items.filter (Document.hasShape shape)
  | .aggregate _, _ => []

namespace Query

/-- The values that steps lead to from several candidates. -/
def advance : List Step → List Document → List Document
  | [], candidates => candidates
  | step :: rest, candidates => advance rest (candidates.flatMap step.apply)

/-- **The values that a sequence of steps leads to**, in document order. -/
def resolveSteps (steps : List Step) (doc : Document) : List Document :=
  advance steps [doc]

/-- The values that a query leads to. -/
def resolve (query : Query) (doc : Document) : List Document :=
  resolveSteps query.steps doc

/-- What stands in a sequence built by hand: a step, or a value that is none. -/
inductive Entry
  | step (step : Step)
  | other (value : Document)

/-- The values that entries lead to from several candidates; the value that is no step,
once a candidate reaches it. -/
def follow : List Entry → List Document → Except Document (List Document)
  | [], candidates => .ok candidates
  | _ :: _, [] => .ok []
  | .other value :: _, _ :: _ => .error value
  | .step step :: rest, candidate :: more =>
    follow rest ((candidate :: more).flatMap step.apply)

end Query

end DocumentFilter
