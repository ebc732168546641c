import DocumentFilter.Proofs.Config.Forms
import DocumentFilter.Proofs.Config.Reading
import DocumentFilter.Proofs.Config.Scalars

/-!
# The normal form of a filter configuration

The same filters can be configured in many ways (`DocumentFilter.Value.Configures`): an operation
has several words, a scalar of any kind stands for a text, a single one for the list of it. All this
is gone once the filters are read, so they can be written in one way only, with the symbols of the
operations and lists of texts. Whatever the filters were read from, this configuration gives them
again: it is accepted, nothing in it is rewritten, and as it is a document without numbers, its JSON
text can be read back.

* `DocumentFilter.Filter.document`: a filter as a document;
* `DocumentFilter.Filter.describes_document`: it describes the filter;
* `DocumentFilter.filtersOfValue_normalForms`: **what was read is read again**, from the values and
  from a file.
-/

namespace DocumentFilter

/-- An operation is named by its symbol. -/
@[simp] theorem Operation.ofText?_symbol (operation : Operation) :
    ofText? operation.symbol = some operation := by
  cases operation <;> decide

/-- The items of an array of texts. -/
theorem Value.ofItems_map_string (texts : List String) :
    ofItems (texts.map .string) = texts.map .string := by
  induction texts with
  | nil => rfl
  | cons s texts ih => rw [List.map_cons, ofItems, ih, List.map_cons, ofDocument]

namespace Filter

/-! ### One filter -/

/-- **A filter as a document**: its query, the symbol of its operation and the list of its
values. -/
def document (filter : Filter) : Document :=
  .object [("query", .string filter.query), ("operation", .string filter.operation.symbol),
    ("values", .array (filter.values.map .string))]

theorem ofDocument_document (filter : Filter) : Value.ofDocument filter.document =
    settings filter.query filter.operation.symbol (.list (filter.values.map .string)) := by
  rw [settings, ← Value.ofItems_map_string]
  rfl

/-- A list of texts gives these. -/
theorem gives_texts (texts : List String) : Value.Gives (.list (texts.map .string)) texts :=
  .list (List.forall₂_map_left_iff.2 (List.forall₂_same.2 fun _ _ => rfl))

/-- **A filter is described** by its document. -/
theorem describes_document (filter : Filter) :
    (Value.ofDocument filter.document).Describes filter := by
  rw [ofDocument_document]
  exact describes_settings (Operation.ofText?_symbol _) (gives_texts filter.values)

/-- The document has no numbers, so that it can be read from its text. -/
theorem legible_document (filter : Filter) : filter.document.Legible := by
  have nodup : ["query", "operation", "values"].Nodup := by decide
  refine .object nodup ?_
  simp only [List.forall_mem_cons]
  exact ⟨.string _, .string _, .array (List.forall_mem_map.2 fun s _ => .string s), nofun⟩

/-! ### Lists of filters -/

/-- The list of the documents of filters. -/
def listDocument (filters : List Filter) : Document :=
  .array (filters.map document)

/-- **The normal forms** of filters: the list of their documents, and a mapping with this list under
the key for it. -/
def normalForms (filters : List Filter) : List Document :=
  [listDocument filters, .object [("filters", listDocument filters)]]

theorem legible_listDocument (filters : List Filter) : (listDocument filters).Legible :=
  .array (List.forall_mem_map.2 fun filter _ => filter.legible_document)

theorem legible_normalForms (filters : List Filter) :
    ∀ form ∈ normalForms filters, form.Legible := by
  have list := legible_listDocument filters
  refine List.forall_mem_cons.2 ⟨list, List.forall_mem_singleton.2 ?_⟩
  exact .object (List.nodup_singleton _) (List.forall_mem_singleton.2 list)

/-- The documents of filters describe these, one each. -/
theorem forall₂_describes (filters : List Filter) :
    List.Forall₂ Value.Describes (Value.ofItems (filters.map document)) filters := by
  induction filters with
  | nil => exact .nil
  | cons filter rest ih => exact .cons filter.describes_document ih

/-- **Each normal form configures** the filters. -/
theorem configures_normalForms (filters : List Filter) :
    ∀ form ∈ normalForms filters, (Value.ofDocument form).Configures filters := by
  have each := forall₂_describes filters
  exact List.forall_mem_cons.2 ⟨.list each, List.forall_mem_singleton.2 (.wrapped rfl each)⟩

end Filter

/-- **What was read is read again.** Filters are read from the values that configure them, which are
many, and each normal form of what was read gives the same filters again. This holds of every JSON
file as well that holds the form, whatever way it is written there, and the text of the form is one
such way. -/
theorem filtersOfValue_normalForms (data : Value) (filters : List Filter) :
    (filtersOfValue data = .ok filters ↔ data.Configures filters) ∧
      ∀ form ∈ Filter.normalForms filters, filtersOfValue (.ofDocument form) = .ok filters ∧
        Json.read (String.ofList (Text.lineFeeds form.text.toList)) = .ok form ∧
        ∀ {files : Files} {path text : String}, '\x00' ∉ (normalPath path).toList →
          isJsonPath (normalPath path) = true → files (normalPath path) = .ok (Utf8.encode text) →
            Json.read (String.ofList (Text.lineFeeds text.toList)) = .ok form →
              loadFilters files path = .ok filters := by
  refine ⟨filtersOfValue_eq_ok_iff, fun form mem => ?_⟩
  have again := filtersOfValue_eq_ok_iff.2 (Filter.configures_normalForms filters form mem)
  refine ⟨again, form.read_lineFeeds_text (Filter.legible_normalForms filters form mem), ?_⟩
  intro files path text named isJson holds read
  rw [loadFilters, readConfig_of_read named isJson holds read]
  exact congrArg (Except.mapError ConfigError.filters) again

/-- A day under the name of an operation, and a list of scalars of all kinds under an alias. -/
theorem filtersOfValue_normalForms_mixed :
    let day : Value := .date ⟨738440, by decide⟩
    let items : List Value :=
      [.map [(.string "values", day), (.string "operation", .string " Greater_Than\n"),
        (.string "query", .string "\"a\"")],
      Filter.settings "" "EQ" (.list [.null, .bool true, .number (.int 1), .string "x"])]
    let data : Value := .map [(.null, .null), (.string "filters", .list items)]
    let filters : List Filter := [⟨"\"a\"", .greater, ["2022-10-13"], by decide⟩,
      ⟨"", .equal, ["null", "true", "1", "x"], by decide⟩]
    let form := Filter.listDocument filters
    let files : Files := fun _ => .ok (Utf8.encode form.text)
    form ∈ Filter.normalForms filters ∧ filtersOfValue data = .ok filters ∧
      filtersOfValue (.ofDocument form) = .ok filters ∧
      loadFilters files "f.json" = .ok filters := by
  intro day items data filters form files
  have described : List.Forall₂ Value.Describes items filters :=
    .cons (Filter.ofValue_eq_ok_iff.1 (by decide +kernel))
      (.cons (Filter.ofValue_eq_ok_iff.1 (by decide +kernel)) .nil)
  have mem : form ∈ Filter.normalForms filters := List.mem_cons_self ..
  obtain ⟨accepted, again⟩ := filtersOfValue_normalForms data filters
  obtain ⟨read, legible, load⟩ := again form mem
  exact ⟨mem, accepted.2 (.wrapped rfl described), read, load (by decide) (by decide) rfl legible⟩

end DocumentFilter
