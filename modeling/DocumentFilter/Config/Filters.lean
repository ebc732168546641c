import DocumentFilter.Config.Check
import DocumentFilter.Filter.Basic

/-!
# Filters in configuration

A filter is configured as a mapping with a query, an operation and values. A single value
may stand for the list of it, and a value that is no text is written as one: days and
timestamps in ISO 8601, everything else as in JSON. An integer of too many digits cannot be written,
and where one is among the values, this is the only fault that is found with them.

* `DocumentFilter.Filter.textsOf`: the texts that are given for values;
* `DocumentFilter.Filter.ofValue`: the filter that a value describes;
* `DocumentFilter.filtersOfValue`: the filters that a whole configuration describes.
-/

namespace DocumentFilter

namespace Filter

/-- The operation that a value names. What names none is shown, if it can be. -/
def operationOf (value : Value) : Checked Operation :=
  match value with
  | .string s =>
    match Operation.ofText? s with
    | some operation => .ok operation
    | none => Checked.fault (.unknownOperation value.display)
  | value =>
    Checked.fault (if value.isWritable then .unknownOperation value.display else .unwritable)

/-- A value as the text to compare with. -/
def targetOf : Value → Checked String
  | .null => .ok (Document.text .null)
  | .bool b => .ok (Document.text (.bool b))
  | .number n =>
    if n.isWritable then .ok (Document.text (.number n)) else Checked.fault .unwritable
  | .string s => .ok s
  | .date day => .ok (String.ofList day.date.isoText)
  | .timestamp t => .ok (String.ofList t.isoText)
  | .list _ => Checked.fault .textExpected
  | .map _ => Checked.fault .textExpected

/-- A number that cannot be written. -/
def isUnwritable : Value → Bool
  | .number n => !n.isWritable
  | _ => false

/-- Values as the texts to compare with: those of a list, or a single one. -/
def textsOf : Value → Checked (List String)
  | .list items =>
    if items.any isUnwritable then Checked.fault .unwritable else Checked.each targetOf 0 items
  | .map _ => Checked.fault .listExpected
  | value => (targetOf value).map fun target => [target]

/-- The values of a filter, of which there is at least one. -/
def targetsOf (value : Value) : Checked { targets : List String // targets ≠ [] } := do
  let targets ← textsOf value
  if h : targets = [] then Checked.fault .tooShort
  else return ⟨targets, h⟩

/-- **The filter that a value describes.** -/
def ofValue (value : Value) : Checked Filter := do
  let entries ← Check.mapping value
  let (query, operation, targets) ←
    Checked.both (Check.field "query" Check.text entries) <|
      Checked.both (Check.field "operation" operationOf entries)
        (Check.field "values" targetsOf entries)
  return ⟨query, operation, targets.val, targets.property⟩

end Filter

/-- Why a value does not describe a list of filters. -/
inductive FiltersError
  /-- It is a mapping without the key for them. -/
  | keyMissing
  /-- The list has faults. -/
  | faults (faults : List Fault)

/-- The words for what is wrong, the faults apart. -/
def FiltersError.message : FiltersError → String
  | .keyMissing => "Filter config must be a list or have a 'filters' key"
  | .faults _ => "Invalid filters"

/-- The filters of a list. -/
def filterList (value : Value) : Except FiltersError (List Filter) :=
  (Check.list Filter.ofValue value).mapError .faults

/-- **The filters that a configuration describes**: a list of them, a mapping that holds
such a list, or nothing. In a mapping, a value that counts as nothing is an empty list. -/
def filtersOfValue : Value → Except FiltersError (List Filter)
  | .null => .ok []
  | .map entries =>
    match Value.entry? "filters" entries with
    | none => .error .keyMissing
    | some value => if value.isEmpty then .ok [] else filterList value
  | value => filterList value

end DocumentFilter
