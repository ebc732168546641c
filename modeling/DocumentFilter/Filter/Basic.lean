import DocumentFilter.Filter.Operation
import DocumentFilter.Text.Quoted

/-!
# Filters

A filter is one condition on a document: the values that a query leads to stand in an
operation to its own values. One of each suffices, so the values of a filter are
alternatives; the filters of a list must hold together.
-/

namespace DocumentFilter

/-- **A filter**: a query, as its text; an operation; and the values to compare with, at
least one. -/
structure Filter where
  query : String
  operation : Operation
  values : List String
  values_ne : values ≠ []
deriving DecidableEq

/-- A filter as messages show it. -/
def Filter.text (filter : Filter) : String :=
  filter.query ++ " " ++ filter.operation.symbol ++ " " ++ Text.quotedList filter.values

end DocumentFilter
