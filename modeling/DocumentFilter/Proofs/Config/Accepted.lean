import DocumentFilter.Config.Filters
import DocumentFilter.Proofs.Trace
import Mathlib.Data.List.Forall2

/-!
# What is accepted for a filter

A check reads a value or finds faults. What it reads, and of what, is said here without the faults:
a lemma for each way to put checks together, and from these the values that describe a filter. They
are many, for an operation has several words and a scalar of any kind may be given for a text, alone
or in a list.

* `DocumentFilter.Checked.each_eq_ok_iff`: a list is checked item by item;
* `DocumentFilter.Value.Describes`: **what describes a filter**;
* `DocumentFilter.Filter.ofValue_eq_ok_iff`: nothing else is accepted for one;
* `DocumentFilter.filterList_eq_ok_iff`: a list of filters.
-/

namespace DocumentFilter

/-! ### Checks put together -/

namespace Checked

variable {α β : Type}

theorem both_eq_ok_iff {x : Checked α} {y : Checked β} {a : α} {b : β} :
    both x y = .ok (a, b) ↔ x = .ok a ∧ y = .ok b := by
  cases x <;> cases y <;> simp [both]

theorem under_eq_ok_iff {part : Part} {x : Checked α} {a : α} :
    under part x = .ok a ↔ x = .ok a := by
  cases x <;> simp [under, Except.mapError]

/-- **A list is checked** item by item, and its indices are in the locations of faults only. -/
theorem each_eq_ok_iff {check : α → Checked β} {n : Nat} {items : List α} {found : List β} :
    each check n items = .ok found ↔
      List.Forall₂ (fun item b => check item = .ok b) items found := by
  induction items generalizing n found with
  | nil => rw [each, List.forall₂_nil_left_iff, Except.ok.injEq, eq_comm]
  | cons item rest ih =>
    rw [each, List.forall₂_cons_left_iff]
    constructor
    · intro read
      cases parts : both (under (.index n) (check item)) (each check (n + 1) rest) with
      | error faults =>
        rw [parts] at read
        cases read
      | ok pair =>
        rw [parts] at read
        cases read
        obtain ⟨first, others⟩ := both_eq_ok_iff.1 parts
        exact ⟨pair.1, pair.2, under_eq_ok_iff.1 first, ih.1 others, rfl⟩
    · rintro ⟨b, bs, first, others, rfl⟩
      rw [both_eq_ok_iff.2 ⟨under_eq_ok_iff.2 first, ih.2 others⟩]
      rfl

end Checked

namespace Check

variable {α : Type} {value : Value} {entries : List (Value × Value)}

theorem mapping_eq_ok_iff : mapping value = .ok entries ↔ value = .map entries := by
  cases value <;> simp [mapping, Checked.fault]

theorem text_eq_ok_iff {s : String} : text value = .ok s ↔ value = .string s := by
  cases value <;> simp [text, Checked.fault]

/-- An entry passes its check if it is there and its value does. -/
theorem field_eq_ok_iff {name : String} {check : Value → Checked α} {a : α} :
    field name check entries = .ok a ↔
      ∃ value, Value.entry? name entries = some value ∧ check value = .ok a := by
  rw [field, Checked.under_eq_ok_iff]
  cases Value.entry? name entries <;> simp [Checked.fault]

end Check

/-! ### Filters -/

/-- **What is given for texts**: a list of scalars that are written as these, or a single one. -/
inductive Value.Gives : Value → List String → Prop
  | list {items : List Value} {targets : List String}
      (each : List.Forall₂ (fun item target => Filter.targetOf item = .ok target) items targets) :
      Gives (.list items) targets
  | single {value : Value} {target : String} (written : Filter.targetOf value = .ok target) :
      Gives value [target]

/-- **What describes a filter**: a mapping with its query, a word for its operation and what is
given for its values. -/
inductive Value.Describes : Value → Filter → Prop
  | intro {entries : List (Value × Value)} {filter : Filter} {word : String} {given : Value}
      (query : entry? "query" entries = some (.string filter.query))
      (operation : entry? "operation" entries = some (.string word))
      (named : Operation.ofText? word = some filter.operation)
      (values : entry? "values" entries = some given) (gives : given.Gives filter.values) :
      Describes (.map entries) filter

namespace Filter

theorem operationOf_eq_ok_iff {value : Value} {operation : Operation} :
    operationOf value = .ok operation ↔
      ∃ word, value = .string word ∧ Operation.ofText? word = some operation := by
  unfold operationOf
  cases value with
  | string s => cases named : Operation.ofText? s <;> simp [Checked.fault, named]
  | _ => simp [Checked.fault]

/-- A number is written as in JSON, if it can be. -/
theorem targetOf_number_eq_ok_iff {n : Number} {target : String} :
    targetOf (.number n) = .ok target ↔
      n.isWritable = true ∧ Document.text (.number n) = target := by
  rw [targetOf]
  split <;> simp_all [Checked.fault]

/-- What is written as a text can be. -/
theorem isUnwritable_of_targetOf {value : Value} {target : String}
    (written : targetOf value = .ok target) : isUnwritable value = false := by
  cases value with
  | number n =>
    rw [isUnwritable, (targetOf_number_eq_ok_iff.1 written).1]
    rfl
  | _ => rfl

/-- So can all items of a list that are written. -/
theorem any_isUnwritable_of_each {items : List Value} {targets : List String}
    (each : List.Forall₂ (fun item target => targetOf item = .ok target) items targets) :
    items.any isUnwritable = false := by
  induction each with
  | nil => rfl
  | cons written _ ih => rw [List.any_cons, isUnwritable_of_targetOf written, ih]; rfl

/-- A single value is given for its own text. -/
theorem gives_of_map {value : Value} {targets : List String}
    (read : (targetOf value).map (fun target => [target]) = .ok targets) : value.Gives targets := by
  cases found : targetOf value with
  | error faults =>
    rw [found] at read
    cases read
  | ok target =>
    rw [found] at read
    cases read
    exact .single found

/-- **What is given for texts**, one or a list of them, is written as these. -/
theorem textsOf_eq_ok_iff {value : Value} {targets : List String} :
    textsOf value = .ok targets ↔ value.Gives targets := by
  constructor
  · intro read
    cases value with
    | list items =>
      rw [textsOf] at read
      split at read
      · cases read
      · exact .list (Checked.each_eq_ok_iff.1 read)
    | map entries => cases read
    | _ => exact gives_of_map read
  · rintro (each | written)
    · -- an item that could not be written would have no text
      rw [textsOf, any_isUnwritable_of_each each]
      exact Checked.each_eq_ok_iff.2 each
    · cases value with
      | list items => cases written
      | map entries => cases written
      | _ => exact congrArg (Except.map fun target => [target]) written

/-- **The values of a filter** are the texts that are given, if there is one. -/
theorem targetsOf_eq_ok_iff {value : Value} {targets : { targets : List String // targets ≠ [] }} :
    targetsOf value = .ok targets ↔ value.Gives targets.val := by
  obtain ⟨targets, ne⟩ := targets
  -- what is read is never empty here, so the last check passes
  have nonempty : ∀ x : Checked (List String),
      (x >>= fun found => if h : found = [] then Checked.fault .tooShort else pure ⟨found, h⟩) =
          (.ok ⟨targets, ne⟩ : Checked { targets : List String // targets ≠ [] }) ↔
        x = .ok targets := by
    intro x
    rw [Except.bind_eq_ok]
    constructor
    · rintro ⟨found, rfl, read⟩
      split at read <;> cases read
      rfl
    · rintro rfl
      exact ⟨targets, rfl, by rw [dif_neg ne]; rfl⟩
  exact (nonempty _).trans textsOf_eq_ok_iff

/-- **The filter of a value** is the one that it describes. -/
theorem ofValue_eq_ok_iff {value : Value} {filter : Filter} :
    ofValue value = .ok filter ↔ value.Describes filter := by
  simp only [ofValue, Except.bind_eq_ok, Check.mapping_eq_ok_iff, Prod.exists,
    Checked.both_eq_ok_iff, Check.field_eq_ok_iff, Check.text_eq_ok_iff, operationOf_eq_ok_iff,
    targetsOf_eq_ok_iff]
  constructor
  · rintro ⟨entries, rfl, _, _, targets, read, same⟩
    obtain ⟨⟨_, query, rfl⟩, ⟨_, operation, word, rfl, named⟩, given, values, gives⟩ := read
    cases same
    exact .intro query operation named values gives
  · rintro ⟨query, operation, named, values, gives⟩
    exact ⟨_, rfl, filter.query, filter.operation, ⟨filter.values, filter.values_ne⟩,
      ⟨⟨_, query, rfl⟩, ⟨_, operation, _, rfl, named⟩, _, values, gives⟩, rfl⟩

end Filter

/-- **A list of filters** is a list of values that each describe one. -/
theorem filterList_eq_ok_iff {value : Value} {filters : List Filter} :
    filterList value = .ok filters ↔ ∃ items, value = .list items ∧
      List.Forall₂ (fun item filter => Filter.ofValue item = .ok filter) items filters := by
  have read : filterList value = .ok filters ↔
      Check.list Filter.ofValue value = .ok filters := by
    rw [filterList]
    cases Check.list Filter.ofValue value <;> simp [Except.mapError]
  rw [read]
  cases value with
  | list items =>
    rw [Check.list, Checked.each_eq_ok_iff]
    simp
  | _ => simp [Check.list, Checked.fault]

end DocumentFilter
