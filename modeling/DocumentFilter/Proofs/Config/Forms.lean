import DocumentFilter.Filter.Matching
import DocumentFilter.Proofs.Config.Accepted

/-!
# The forms of a filter configuration

Filters are configured as a list of them, or as a mapping that holds the list under a key. Nothing
at all is no filters in either form. The mapping is a little too liberal here: not only null is
taken for nothing there, but everything that counts as nothing where a truth value is expected. An
empty list is no harm. A false, a zero or an empty text, however, is refused as a list of filters
and becomes the list without filters inside of a mapping, which every document matches
(`DocumentFilter.Value.Swallowed`). Beyond these values the forms agree.

* `DocumentFilter.Value.isEmpty_iff`: what counts as nothing;
* `DocumentFilter.filtersOfValue_eq_ok_iff`: what is accepted;
* `DocumentFilter.filtersOfValue_wrapped`: **where the forms agree, and what is swallowed**.
-/

namespace DocumentFilter

/-! ### Values that count as nothing -/

/-- **What a mapping swallows**: it is no list of filters, but counts as nothing. -/
inductive Value.Swallowed : Value → Prop
  | no : Swallowed (.bool false)
  | zero {n : Number} (zero : n.same (.int 0) = true) : Swallowed (.number n)
  | blank : Swallowed (.string "")

/-- **What counts as nothing**: null and an empty list, and what is swallowed. -/
theorem Value.isEmpty_iff {value : Value} (plain : ∀ entries, value ≠ .map entries) :
    value.isEmpty = true ↔ value = .null ∨ value = .list [] ∨ value.Swallowed := by
  constructor
  · intro empty
    cases value with
    | null => exact .inl rfl
    | bool b =>
      cases b with
      | false => exact .inr (.inr .no)
      | true => cases empty
    | number n => exact .inr (.inr (.zero empty))
    | string s => exact .inr (.inr (String.isEmpty_iff.1 empty ▸ .blank))
    | date day => cases empty
    | timestamp t => cases empty
    | list items => exact .inr (.inl (congrArg _ (List.isEmpty_iff.1 empty)))
    | map entries => exact absurd rfl (plain entries)
  · rintro (rfl | rfl | (_ | zero | _))
    · rfl
    · rfl
    · rfl
    · exact zero
    · rfl

/-- What is swallowed is refused where it stands alone. -/
theorem Value.Swallowed.filtersOfValue_eq {value : Value} (swallowed : value.Swallowed) :
    filtersOfValue value = .error (.faults [⟨[], .listExpected⟩]) := by
  cases swallowed <;> rfl

/-! ### The two forms -/

/-- What is no mapping, and not null either, is checked as a list. -/
theorem filtersOfValue_eq_filterList {value : Value} (plain : ∀ entries, value ≠ .map entries)
    (ne : value ≠ .null) : filtersOfValue value = filterList value := by
  cases value with
  | null => exact absurd rfl ne
  | map entries => exact absurd rfl (plain entries)
  | _ => rfl

/-- A mapping gives the list under its key, if this does not count as nothing. -/
theorem filtersOfValue_map {entries : List (Value × Value)} {value : Value}
    (found : Value.entry? "filters" entries = some value) : filtersOfValue (.map entries) =
      if value.isEmpty then .ok [] else filterList value := by
  rw [filtersOfValue, found]

/-- **What configures filters**: null, a list of values that each describe one, and a mapping with
such a list or with what counts as nothing under the key. -/
inductive Value.Configures : Value → List Filter → Prop
  | nothing : Configures .null []
  | list {items : List Value} {filters : List Filter}
      (each : List.Forall₂ Describes items filters) : Configures (.list items) filters
  | wrapped {entries : List (Value × Value)} {items : List Value} {filters : List Filter}
      (found : entry? "filters" entries = some (.list items))
      (each : List.Forall₂ Describes items filters) : Configures (.map entries) filters
  | empty {entries : List (Value × Value)} {value : Value}
      (found : entry? "filters" entries = some value) (empty : value.isEmpty = true) :
      Configures (.map entries) []

/-- **Nothing else is accepted.** -/
theorem filtersOfValue_eq_ok_iff {data : Value} {filters : List Filter} :
    filtersOfValue data = .ok filters ↔ data.Configures filters := by
  have of_list : ∀ {value}, filterList value = .ok filters ↔
      ∃ items, value = .list items ∧ List.Forall₂ Value.Describes items filters := by
    simp only [filterList_eq_ok_iff, Filter.ofValue_eq_ok_iff, implies_true]
  constructor
  · intro accepted
    cases data with
    | null =>
      cases accepted
      exact .nothing
    | map entries =>
      rw [filtersOfValue] at accepted
      split at accepted
      · cases accepted
      · rename_i value found
        split at accepted
        · rename_i empty
          cases accepted
          exact .empty found empty
        · obtain ⟨items, rfl, each⟩ := of_list.1 accepted
          exact .wrapped found each
    | list items =>
      obtain ⟨_, ⟨⟩, each⟩ := of_list.1 accepted
      exact .list each
    | _ => cases accepted
  · rintro (_ | each | ⟨found, each⟩ | ⟨found, empty⟩)
    · rfl
    · exact of_list.2 ⟨_, rfl, each⟩
    · rw [filtersOfValue_map found]
      cases each with
      | nil => rfl
      | cons first rest => exact of_list.2 ⟨_, rfl, .cons first rest⟩
    · rw [filtersOfValue_map found, if_pos empty]

/-- **The forms agree** unless something is swallowed. A value that is no mapping gives the same
filters or the same faults alone and in a mapping, except for those that the mapping swallows: each
of these is refused alone, and in a mapping it becomes the list that every document matches. What is
accepted alone is null, or a list of values that each describe a filter. -/
theorem filtersOfValue_wrapped {entries : List (Value × Value)} {value : Value}
    (plain : ∀ inner, value ≠ .map inner)
    (found : Value.entry? "filters" entries = some value) :
    (filtersOfValue (.map entries) = filtersOfValue value ↔ ¬value.Swallowed) ∧
    (value.Swallowed → filtersOfValue (.map entries) = .ok [] ∧
      filtersOfValue value = .error (.faults [⟨[], .listExpected⟩]) ∧
      ∀ doc, (matchesAll doc []).outcome = .ok true) ∧
    ∀ filters, filtersOfValue value = .ok filters ↔
      (value = .null ∧ filters = []) ∨ ∃ items, value = .list items ∧
        List.Forall₂ (fun item filter => Filter.ofValue item = .ok filter) items filters := by
  have swallows : value.Swallowed → filtersOfValue (.map entries) = .ok [] := by
    intro swallowed
    rw [filtersOfValue_map found, if_pos ((Value.isEmpty_iff plain).2 (.inr (.inr swallowed)))]
  refine ⟨⟨?_, ?_⟩, ?_, ?_⟩
  · intro same swallowed
    rw [swallows swallowed, swallowed.filtersOfValue_eq] at same
    cases same
  · intro kept
    rw [filtersOfValue_map found]
    split
    case isTrue empty =>
      -- what counts as nothing without being swallowed is nothing alone as well
      rcases (Value.isEmpty_iff plain).1 empty with rfl | rfl | swallowed
      · rfl
      · rfl
      · exact absurd swallowed kept
    case isFalse full =>
      refine (filtersOfValue_eq_filterList plain ?_).symm
      rintro rfl
      exact full rfl
  · exact fun swallowed => ⟨swallows swallowed, swallowed.filtersOfValue_eq, fun _ => rfl⟩
  · intro filters
    by_cases null : value = .null
    · subst null
      simp [filtersOfValue, eq_comm]
    · rw [filtersOfValue_eq_filterList plain null, filterList_eq_ok_iff]
      simp [null]

/-- A list of one filter, in a mapping with another entry, and a zero. -/
theorem filtersOfValue_wrapped_list_and_zero :
    let list : Value := .list [.map [(.string "query", .string "\"a\""),
      (.string "operation", .string "="), (.string "values", .list [.string "x"])]]
    let zero : Value := .number (.int 0)
    let wrapped (value : Value) : Value := .map [(.null, .null), (.string "filters", value)]
    filtersOfValue (wrapped list) = filtersOfValue list ∧
      (∃ filters, filtersOfValue list = .ok filters) ∧
      filtersOfValue (wrapped zero) ≠ filtersOfValue zero ∧
      ∀ doc, (matchesAll doc []).outcome = .ok true := by
  intro list zero wrapped
  have plain : ∀ inner, list ≠ .map inner := fun inner same => Value.noConfusion same
  have plain' : ∀ inner, zero ≠ .map inner := fun inner same => Value.noConfusion same
  have kept : ¬list.Swallowed := (nofun : ¬Value.Swallowed (.list _))
  have swallowed : zero.Swallowed := .zero (by decide)
  obtain ⟨agree, -, accepted⟩ := filtersOfValue_wrapped plain
    (show Value.entry? "filters" [(.null, .null), (.string "filters", list)] = some list from rfl)
  obtain ⟨differ, read, -⟩ := filtersOfValue_wrapped plain'
    (show Value.entry? "filters" [(.null, .null), (.string "filters", zero)] = some zero from rfl)
  refine ⟨agree.2 kept, ⟨[⟨"\"a\"", .equal, ["x"], by decide⟩], ?_⟩, fun same => ?_, ?_⟩
  · exact (accepted _).2 (.inr ⟨_, rfl, .cons (by rfl) .nil⟩)
  · exact differ.1 same swallowed
  · exact (read swallowed).2.2

/-- **A false is refused alone and swallowed in a mapping.** -/
theorem exists_swallowed : ∃ value : Value, (∀ inner, value ≠ .map inner) ∧
    (∃ error, filtersOfValue value = .error error) ∧
    filtersOfValue (.map [(.string "filters", value)]) = .ok [] :=
  ⟨.bool false, nofun, ⟨_, rfl⟩, rfl⟩

end DocumentFilter
