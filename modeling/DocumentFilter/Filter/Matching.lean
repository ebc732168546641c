import DocumentFilter.Filter.Evaluation
import DocumentFilter.Log
import DocumentFilter.Query.Parse
import DocumentFilter.Query.Resolve
import DocumentFilter.Trace

/-!
# Matching documents against filters

A document matches a list of filters if each of them has a match among the values that
its query leads to there. The queries of all filters are read before any filter is
evaluated, so a malformed one is reported whatever the document.

* `DocumentFilter.explain`: the outcome of one filter on one document;
* `DocumentFilter.matchesAll`: the verdict of a list of filters;
* `DocumentFilter.filterDocuments`: the documents that match.
-/

namespace DocumentFilter

/-- Why matching fails. -/
inductive MatchError
  /-- A query is malformed. -/
  | query (error : Query.Error)
  /-- A comparison met an object or an array where it needs a scalar. -/
  | collection (kind : Kind)
  /-- A strict evaluation met a comparison that is not defined. -/
  | unsupported (u : Unsupported)

/-- What matching notes. -/
inductive MatchNote
  | resolved (query : String) (values : List Document)
  | comparison (comparison : Comparison)
  | rejected (filter : Filter)

/-- The log's words for a comparison. -/
def Comparison.message : Comparison → String
  | .matched value target operation =>
    "value " ++ value.display ++ " matched " ++ Text.quoted target ++ " with operation " ++
      operation.symbol
  | .unsupported u => "unsupported comparison: " ++ u.message

/-- The log's words for a note. -/
def MatchNote.message : MatchNote → String
  | .resolved query [] => "query " ++ query ++ " resolved to nothing"
  | .resolved query values =>
    "query " ++ query ++ " resolved to " ++ Document.displayList values
  | .comparison c => c.message
  | .rejected filter => "filter " ++ filter.text ++ " did not match"

/-- A note as a record of the log. -/
def MatchNote.record (note : MatchNote) : LogRecord :=
  ⟨.debug, "webql.filtering", note.message⟩

/-- Computations that match documents. -/
abbrev Matching := Traced MatchNote MatchError

/-- Evaluates an operation and notes its comparisons. -/
def evaluateNoting (values : List Document) (operation : Operation) (targets : List String) :
    Matching Verdict :=
  match evaluate values operation targets with
  | .ok verdict => ⟨verdict.notes.map .comparison, .ok verdict⟩
  | .error kind => .fail (.collection kind)

/-- Whether one of the values stands in the operation to one of the targets; if strict, a
comparison that is not defined is an error where nothing matched. -/
def matchesValues (strict : Bool) (values : List Document) (operation : Operation)
    (targets : List String) : Matching Bool := do
  let verdict ← evaluateNoting values operation targets
  if strict then Traced.lift (verdict.strict.mapError .unsupported)
  else return verdict.matched

/-! ### Filters -/

/-- The query of a filter, read. -/
def Filter.path (filter : Filter) : Except MatchError Query :=
  (Query.parse filter.query).mapError .query

/-- How a filter went on a document: the values that its query led to and the verdict on
them. -/
structure Outcome where
  filter : Filter
  values : List Document
  verdict : Verdict

/-- No match, and a comparison that is not defined. -/
def Outcome.isUnsupported (outcome : Outcome) : Bool :=
  !outcome.verdict.matched && !outcome.verdict.unsupported.isEmpty

/-- The outcome of a filter on a document, by its query as it was read. -/
def outcome (doc : Document) (filter : Filter) (path : Query) : Matching Outcome := do
  let values := path.resolve doc
  Traced.note (.resolved filter.query values)
  let verdict ← evaluateNoting values filter.operation filter.values
  return ⟨filter, values, verdict⟩

/-- **The outcome of a filter** on a document. -/
def explain (doc : Document) (filter : Filter) : Matching Outcome := do
  outcome doc filter (← Traced.lift filter.path)

/-- The filters with their queries, read; the first malformed query is an error. -/
def readQueries : List Filter → Except MatchError (List (Filter × Query))
  | [] => .ok []
  | filter :: rest => do
    let path ← filter.path
    return (filter, path) :: (← readQueries rest)

/-- Whether a document matches each of the filters, up to the first that it does not. -/
def matchesEach (doc : Document) : List (Filter × Query) → Matching Bool
  | [] => .ok true
  | (filter, path) :: rest => do
    let found ← outcome doc filter path
    if found.verdict.matched then matchesEach doc rest
    else
      Traced.note (.rejected filter)
      return false

/-- **Whether a document matches all filters.** -/
def matchesAll (doc : Document) (filters : List Filter) : Matching Bool := do
  matchesEach doc (← Traced.lift (readQueries filters))

/-! ### Several documents -/

/-- The documents that were kept up to the end or to a failure, the notes on the way and
the failure. -/
structure Kept where
  documents : List Document
  notes : List MatchNote
  failure : Option MatchError

/-- **The documents that match all filters**, in order. -/
def filterDocuments (filters : List Filter) : List Document → Kept
  | [] => ⟨[], [], none⟩
  | doc :: rest =>
    let verdict := matchesAll doc filters
    match verdict.outcome with
    | .error error => ⟨[], verdict.notes, some error⟩
    | .ok matched =>
      let kept := filterDocuments filters rest
      ⟨if matched then doc :: kept.documents else kept.documents, verdict.notes ++ kept.notes,
        kept.failure⟩

end DocumentFilter
