import DocumentFilter.Proofs.Config.Forms
import DocumentFilter.Proofs.Config.Reading
import DocumentFilter.Proofs.Number.Rounding
import DocumentFilter.Proofs.Yaml.Value

/-!
# Filters in JSON and in YAML

A JSON file can be renamed to a name for YAML, and most of the time this changes nothing. It does
where a number has an exponent without a sign or without a fraction: YAML takes that for a text,
which keeps the characters that are written, while JSON reads a number and writes it anew. Where it
is the text to compare with, the filter is another one then. The same happens to `NaN` and the
infinities, but these are written anew as they were written.

Apart from that a text can be malformed in YAML, for a tab, for a character that is not allowed
there, or for a name that is not attached to its colon (`DocumentFilter.Json.Layout.isYaml`). Left
out here are strings with the codes of a pair of halves, which YAML does not put together, and those
with ends of lines besides the line feed, which it folds.

* `DocumentFilter.Value.Respelt`: values up to numbers that have become texts;
* `DocumentFilter.filtersOfValue_of_respelt`: the filters of such values;
* `DocumentFilter.loadFilters_formats`: **what a JSON text loads in YAML**.
-/

namespace DocumentFilter

open Json (Literal Piece Scalar Tree Items Members Name Layout Space)

/-! ### Values -/

mutual

/-- **A value that is read as another**: numbers of a class may have become texts with the
characters that are written for them, and those that are not zero texts with the characters of their
JSON text. -/
inductive Value.Respelt (worded : Literal → Prop) : Value → Value → Prop
  | null : Respelt worded .null .null
  | bool (b : Bool) : Respelt worded (.bool b) (.bool b)
  | number (n : Number) : Respelt worded (.number n) (.number n)
  | string (s : String) : Respelt worded (.string s) (.string s)
  | text {n : Number} (ne : n.same (.int 0) = false) :
      Respelt worded (.number n) (.string (Document.text (.number n)))
  | worded {l : Literal} (isWorded : worded l) :
      Respelt worded (.number l.number) (.string (String.ofList l.chars))
  | list {items items' : List Value} (each : List.Forall₂ (Value.Respelt worded) items items') :
      Respelt worded (.list items) (.list items')
  | map {entries entries' : List (Value × Value)}
      (each : List.Forall₂ (Value.EntryRespelt worded) entries entries') :
      Respelt worded (.map entries) (.map entries')

/-- The same of the values of two entries with one key. -/
inductive Value.EntryRespelt (worded : Literal → Prop) : Value × Value → Value × Value → Prop
  | intro (key : Value) {value value' : Value} (respelt : Value.Respelt worded value value') :
      EntryRespelt worded (key, value) (key, value')

end

namespace Value

variable {worded : Literal → Prop}

/-- A field that is set, and the entry for it. -/
theorem respelt_setField (name : String) {doc : Document} {value : Value}
    (respelt : Respelt worded (.ofDocument doc) value) {fields : List (String × Document)}
    {entries : List (Value × Value)}
    (each : List.Forall₂ (EntryRespelt worded) (ofFields fields) entries) :
    List.Forall₂ (EntryRespelt worded) (ofFields (Document.setField name doc fields))
      (setEntry (.string name) value entries) := by
  induction fields generalizing entries with
  | nil =>
    cases each
    exact .cons (.intro _ respelt) .nil
  | cons field rest ih =>
    obtain ⟨key, old⟩ := field
    rw [ofFields, ofField] at each
    obtain ⟨_, others, ⟨_, first⟩, more, rfl⟩ := List.forall₂_cons_left_iff.1 each
    rw [Document.setField, setEntry, sameKey]
    by_cases same : key = name
    · rw [if_pos same, if_pos (decide_eq_true same)]
      exact .cons (.intro _ respelt) more
    · rw [if_neg same, if_neg (by simpa using same)]
      exact .cons (.intro _ first) (ih more)

/-- What is found under a key. -/
theorem exists_entry?_of_respelt {name : String} {entries entries' : List (Value × Value)}
    (each : List.Forall₂ (EntryRespelt worded) entries entries') {value : Value}
    (found : entry? name entries = some value) :
    ∃ value', entry? name entries' = some value' ∧ Respelt worded value value' := by
  induction each with
  | nil => cases found
  | cons first rest ih =>
    obtain ⟨key, respelt⟩ := first
    cases key with
    | string s =>
      rw [Value.entry?] at found ⊢
      split at found
      · rename_i same
        cases found
        exact ⟨_, if_pos same, respelt⟩
      · rename_i other
        rw [if_neg other]
        exact ih found
    | _ => exact ih found

end Value

/-! ### Trees -/

namespace Json

/-- A piece of a string that is no pair of halves, which YAML does not put together. -/
def Piece.isWhole : Piece → Bool
  | .halves _ _ _ => false
  | _ => true

/-- A scalar without such pairs. -/
def Scalar.isWhole : Scalar → Bool
  | .string pieces => pieces.all Piece.isWhole
  | _ => true

mutual

/-- The scalars of a value, names among them. -/
def Tree.scalars : Tree → List Scalar
  | .scalar s => [s]
  | .emptyArray _ => []
  | .array _ items => items.scalars
  | .emptyObject _ => []
  | .object _ members => members.scalars

/-- The scalars of items. -/
def Items.scalars : Items → List Scalar
  | .last item _ => item.scalars
  | .more item _ _ rest => item.scalars ++ rest.scalars

/-- The scalars of fields. -/
def Members.scalars : Members → List Scalar
  | .last name value _ => .string name.pieces :: value.scalars
  | .more name value _ _ rest => .string name.pieces :: (value.scalars ++ rest.scalars)

end

/-- **A number that YAML takes for a text.** -/
def Tree.Worded (tree : Tree) (l : Literal) : Prop :=
  .number l ∈ tree.scalars ∧ l.isYaml = false

theorem flatMap_yaml {pieces : List Piece} (whole : (Scalar.string pieces).isWhole = true) :
    pieces.flatMap Piece.yaml = pieces.map Piece.letter := by
  rw [List.map_eq_flatMap]
  refine List.flatMap_congr fun piece mem => ?_
  have single := List.all_eq_true.1 whole piece mem
  cases piece with
  | halves high low pair => cases single
  | _ => rfl

/-- The key that YAML makes of a name without pairs of halves. -/
theorem Name.yaml_of_isWhole {name : Name} (whole : (Scalar.string name.pieces).isWhole = true) :
    name.yaml = .string name.text := by
  rw [Name.yaml, flatMap_yaml whole, Name.text]

section Respelt

variable {worded : Literal → Prop}

/-- A scalar in which YAML takes no other numbers for texts, and that has no pairs of halves. -/
def Scalar.Fits (worded : Literal → Prop) (s : Scalar) : Prop :=
  s.isWhole = true ∧ ∀ l, s = .number l → l.isYaml = false → worded l

/-- What YAML makes of a scalar. -/
theorem respelt_scalar {s : Scalar} (fits : s.Fits worded) :
    Value.Respelt worded (.ofDocument s.document) s.yaml := by
  obtain ⟨whole, allowed⟩ := fits
  cases s with
  | null => exact .null
  | bool b => exact .bool b
  | nan => exact .text (n := .float .nan) rfl
  | infinity negative =>
    cases negative with
    | true => exact .text (n := .float (.infinite true)) rfl
    | false => exact .text (n := .float (.infinite false)) rfl
  | string pieces =>
    change Value.Respelt worded _ (.string (String.ofList (pieces.flatMap Piece.yaml)))
    rw [flatMap_yaml whole]
    exact .string _
  | number l =>
    rw [Scalar.yaml]
    cases yaml : l.isYaml with
    | true => exact .number _
    | false => exact .worded (allowed l rfl yaml)

mutual

/-- **What YAML makes of a tree** is what it denotes, up to numbers that are texts there. -/
theorem respelt_tree (tree : Tree) (fits : ∀ s ∈ tree.scalars, s.Fits worded) :
    Value.Respelt worded (.ofDocument tree.document) tree.yaml := by
  match tree with
  | .scalar s => exact respelt_scalar (fits s (List.mem_singleton_self s))
  | .emptyArray inside => exact .list .nil
  | .array inside items =>
    rw [Tree.document, Tree.yaml, Value.ofDocument]
    exact .list (respelt_items items fits)
  | .emptyObject inside => exact .map .nil
  | .object inside members =>
    rw [Tree.document, Tree.yaml, Value.ofDocument]
    exact .map (respelt_members members fits .nil)

/-- **The same of items.** -/
theorem respelt_items (items : Items) (fits : ∀ s ∈ items.scalars, s.Fits worded) :
    List.Forall₂ (Value.Respelt worded) (Value.ofItems items.documents) items.yaml := by
  match items with
  | .last item after => exact .cons (respelt_tree item fits) .nil
  | .more item after behind more =>
    rw [Items.scalars, List.forall_mem_append] at fits
    rw [Items.documents, Items.yaml, Value.ofItems]
    exact .cons (respelt_tree item fits.1) (respelt_items more fits.2)

/-- **The same of fields**, after those that come before. -/
theorem respelt_members (members : Members) (fits : ∀ s ∈ members.scalars, s.Fits worded)
    {before : List (String × Document)} {before' : List (Value × Value)}
    (each : List.Forall₂ (Value.EntryRespelt worded) (Value.ofFields before) before') :
    List.Forall₂ (Value.EntryRespelt worded) (Value.ofFields (members.fields before))
      (members.yaml before') := by
  match members with
  | .last name value after =>
    rw [Members.scalars, List.forall_mem_cons] at fits
    rw [Members.fields, Members.yaml, Name.yaml_of_isWhole fits.1.1]
    exact Value.respelt_setField name.text (respelt_tree value fits.2) each
  | .more name value after behind more =>
    rw [Members.scalars, List.forall_mem_cons, List.forall_mem_append] at fits
    rw [Members.fields, Members.yaml, Name.yaml_of_isWhole fits.1.1]
    exact respelt_members more fits.2.2
      (Value.respelt_setField name.text (respelt_tree value fits.2.1) each)

end

end Respelt

end Json

/-! ### Filters -/

section Filters

variable {worded : Literal → Prop}

/-- **A text that is spelt otherwise**: it is the same, or the text of a number of the class, and
the other is what is written for that. -/
def Respelling (worded : Literal → Prop) (s s' : String) : Prop :=
  s = s' ∨ ∃ l, worded l ∧ s = Document.text (.number l.number) ∧ s' = String.ofList l.chars

/-- **A filter whose values are spelt otherwise.** -/
structure Filter.Respelt (worded : Literal → Prop) (filter filter' : Filter) : Prop where
  query : filter.query = filter'.query
  operation : filter.operation = filter'.operation
  values : List.Forall₂ (Respelling worded) filter.values filter'.values

namespace Filter

/-- A target that is spelt otherwise. -/
theorem exists_targetOf {value value' : Value} (respelt : value.Respelt worded value')
    {target : String} (read : targetOf value = .ok target) :
    ∃ target', targetOf value' = .ok target' ∧ Respelling worded target target' := by
  cases respelt with
  | text ne =>
    obtain ⟨-, rfl⟩ := targetOf_number_eq_ok_iff.1 read
    exact ⟨_, rfl, .inl rfl⟩
  | worded isWorded =>
    obtain ⟨-, rfl⟩ := targetOf_number_eq_ok_iff.1 read
    exact ⟨_, rfl, .inr ⟨_, isWorded, rfl, rfl⟩⟩
  | list each => cases read
  | map each => cases read
  | _ => exact ⟨target, read, .inl rfl⟩

/-- Lists whose elements correspond give lists whose elements correspond. -/
theorem exists_forall₂ {α α' β β' : Type} {R : α → α' → Prop} {P : α → β → Prop}
    {P' : α' → β' → Prop} {Q : β → β' → Prop}
    (step : ∀ a a' b, R a a' → P a b → ∃ b', P' a' b' ∧ Q b b') {as : List α} {as' : List α'}
    {bs : List β} (related : List.Forall₂ R as as') (each : List.Forall₂ P as bs) :
    ∃ bs', List.Forall₂ P' as' bs' ∧ List.Forall₂ Q bs bs' := by
  induction related generalizing bs with
  | nil =>
    cases each
    exact ⟨[], .nil, .nil⟩
  | cons first rest ih =>
    obtain ⟨b, others, here, there, rfl⟩ := List.forall₂_cons_left_iff.1 each
    obtain ⟨b', made, alike⟩ := step _ _ _ first here
    obtain ⟨others', made', alike'⟩ := ih there
    exact ⟨b' :: others', .cons made made', .cons alike alike'⟩

/-- Targets that are spelt otherwise, in a list. -/
theorem exists_targetOf_each {items items' : List Value}
    (related : List.Forall₂ (Value.Respelt worded) items items') {targets : List String}
    (each : List.Forall₂ (fun item target => targetOf item = .ok target) items targets) :
    ∃ targets', List.Forall₂ (fun item target => targetOf item = .ok target) items' targets' ∧
      List.Forall₂ (Respelling worded) targets targets' := by
  refine exists_forall₂ (fun _ _ _ respelt read => ?_) related each
  exact exists_targetOf respelt read

/-- The same of what is given for them, a list or a single one. -/
theorem exists_gives {given given' : Value} (respelt : given.Respelt worded given')
    {targets : List String} (gives : given.Gives targets) :
    ∃ targets', given'.Gives targets' ∧ List.Forall₂ (Respelling worded) targets targets' := by
  cases gives with
  | list each =>
    obtain _ | _ | _ | _ | _ | _ | related := respelt
    obtain ⟨targets', each', alike⟩ := exists_targetOf_each related each
    exact ⟨targets', .list each', alike⟩
  | single written =>
    obtain ⟨target', written', alike⟩ := exists_targetOf respelt written
    exact ⟨[target'], .single written', .cons alike .nil⟩

/-- **A filter that is described otherwise** has the same query and the same operation. -/
theorem exists_describes {value value' : Value} (respelt : value.Respelt worded value')
    {filter : Filter} (describes : value.Describes filter) :
    ∃ filter', value'.Describes filter' ∧ filter.Respelt worded filter' := by
  obtain ⟨query, operation, named, values, gives⟩ := describes
  obtain _ | _ | _ | _ | _ | _ | _ | each := respelt
  obtain ⟨_, query', ⟨⟩⟩ := Value.exists_entry?_of_respelt each query
  obtain ⟨_, operation', ⟨⟩⟩ := Value.exists_entry?_of_respelt each operation
  obtain ⟨given', values', alike⟩ := Value.exists_entry?_of_respelt each values
  obtain ⟨targets', gives', spelt⟩ := exists_gives alike gives
  have ne : targets' ≠ [] := by
    rintro rfl
    exact filter.values_ne (List.forall₂_nil_right_iff.1 spelt)
  exact ⟨⟨filter.query, filter.operation, targets', ne⟩,
    .intro query' operation' named values' gives', ⟨rfl, rfl, spelt⟩⟩

/-- Filters that are described otherwise. -/
theorem exists_describes_each {items items' : List Value}
    (related : List.Forall₂ (Value.Respelt worded) items items') {filters : List Filter}
    (each : List.Forall₂ Value.Describes items filters) :
    ∃ filters', List.Forall₂ Value.Describes items' filters' ∧
      List.Forall₂ (Filter.Respelt worded) filters filters' := by
  refine exists_forall₂ (fun _ _ _ respelt describes => ?_) related each
  exact exists_describes respelt describes

end Filter

/-- What counts as nothing still does, unless it is a zero that is taken for a text. -/
theorem Value.isEmpty_of_respelt {value value' : Value} (respelt : value.Respelt worded value')
    (empty : value.isEmpty = true) : value'.isEmpty = true ∨
      ∃ l, worded l ∧ l.number.same (.int 0) = true ∧ value' = .string (String.ofList l.chars) := by
  cases respelt with
  | text ne =>
    rw [isEmpty, ne] at empty
    cases empty
  | worded isWorded => exact .inr ⟨_, isWorded, empty, rfl⟩
  | list each =>
    obtain rfl := List.isEmpty_iff.1 empty
    cases each
    exact .inl rfl
  | map each =>
    obtain rfl := List.isEmpty_iff.1 empty
    cases each
    exact .inl rfl
  | _ => exact .inl empty

/-- **The filters of a configuration that is spelt otherwise.** Only a zero in the place of all
filters, which counts as nothing, is no longer accepted. -/
theorem filtersOfValue_of_respelt {data data' : Value} (respelt : data.Respelt worded data')
    {filters : List Filter} (accepted : filtersOfValue data = .ok filters) :
    (∃ filters', filtersOfValue data' = .ok filters' ∧
        List.Forall₂ (Filter.Respelt worded) filters filters') ∨
      filters = [] ∧ filtersOfValue data' = .error (.faults [⟨[], .listExpected⟩]) ∧
        ∃ l, worded l ∧ l.number.same (.int 0) = true := by
  cases filtersOfValue_eq_ok_iff.1 accepted with
  | nothing =>
    cases respelt
    exact .inl ⟨[], rfl, .nil⟩
  | list each =>
    obtain _ | _ | _ | _ | _ | _ | related := respelt
    obtain ⟨filters', each', alike⟩ := Filter.exists_describes_each related each
    exact .inl ⟨filters', filtersOfValue_eq_ok_iff.2 (.list each'), alike⟩
  | wrapped found each =>
    obtain _ | _ | _ | _ | _ | _ | _ | entries := respelt
    obtain ⟨_, found', spelt⟩ := Value.exists_entry?_of_respelt entries found
    obtain _ | _ | _ | _ | _ | _ | related := spelt
    obtain ⟨filters', each', alike⟩ := Filter.exists_describes_each related each
    exact .inl ⟨filters', filtersOfValue_eq_ok_iff.2 (.wrapped found' each'), alike⟩
  | empty found empty =>
    obtain _ | _ | _ | _ | _ | _ | _ | entries := respelt
    obtain ⟨_, found', spelt⟩ := Value.exists_entry?_of_respelt entries found
    obtain empty' | ⟨l, isWorded, zero, rfl⟩ := Value.isEmpty_of_respelt spelt empty
    · exact .inl ⟨[], filtersOfValue_eq_ok_iff.2 (.empty found' empty'), .nil⟩
    · refine .inr ⟨rfl, ?_, l, isWorded, zero⟩
      obtain ⟨c, rest, shape, -⟩ := l.exists_chars
      have full : (String.ofList l.chars).isEmpty = false := by
        rw [shape]
        simp
      rw [filtersOfValue_map found', Value.isEmpty, full]
      rfl

end Filters

/-! ### Zeros -/

/-- **The text of a zero.** -/
theorem Number.text_of_same_zero {n : Number} (zero : n.same (.int 0) = true) :
    Document.text (.number n) ∈ ["0", "0.0", "-0.0"] := by
  have zeros : ∀ negative, Document.text (.number (.float (.zero negative))) ∈
      ["0", "0.0", "-0.0"] := by decide +kernel
  cases n with
  | int m =>
    have none : (m : Rat) = 0 := by simpa [same, place?] using zero
    obtain rfl : m = 0 := by exact_mod_cast none
    decide +kernel
  | float x =>
    cases x with
    | nan => cases zero
    | infinite negative => cases negative <;> cases zero
    | finite negative magnitude =>
      have none : magnitude.value = 0 := by
        cases negative <;> simpa [same, place?] using zero
      have empty : magnitude.significand = 0 := by
        by_contra pos
        exact (Binary64.Magnitude.value_pos (Nat.pos_of_ne_zero pos)).ne' none
      obtain ⟨significand, exponent, canonical⟩ := magnitude
      obtain rfl : significand = 0 := empty
      obtain rfl : exponent = -1074 := canonical.2.2.2.resolve_left (by decide)
      exact zeros negative

namespace Json

/-- **A number that is a text in YAML has an exponent.** -/
theorem Literal.mem_of_isYaml_eq_false {l : Literal} (worded : l.isYaml = false) :
    'e' ∈ l.chars ∨ 'E' ∈ l.chars := by
  rw [Literal.isYaml] at worded
  rcases shape : l.exponent with _ | e
  · rw [shape] at worded
    cases worded
  · have mem : (if e.upper then 'E' else 'e') ∈ l.chars := by
      rw [Literal.chars, Literal.unsignedChars, shape, exponentChars, Exponent.chars]
      simp
    cases upper : e.upper with
    | true => exact .inr (by rwa [upper] at mem)
    | false => exact .inl (by rwa [upper] at mem)

/-- A zero that is a text in YAML is not written as the JSON text of a zero. -/
theorem Literal.ne_text_of_zero {l : Literal} (worded : l.isYaml = false)
    (zero : l.number.same (.int 0) = true) :
    String.ofList l.chars ≠ Document.text (.number l.number) := by
  intro same
  have bare : ∀ s ∈ ["0", "0.0", "-0.0"], 'e' ∉ s.toList ∧ 'E' ∉ s.toList := by decide
  have apart := bare _ (same ▸ Number.text_of_same_zero zero)
  rw [String.toList_ofList] at apart
  exact (Literal.mem_of_isYaml_eq_false worded).elim apart.1 apart.2

end Json

/-! ### Files -/

/-- The filters of a file whose value is known. -/
theorem loadFilters_of_readConfig {files : Files} {path : String} {value : Value}
    (read : readConfig files path = .ok value) :
    loadFilters files path = (filtersOfValue value).mapError .filters := by
  rw [loadFilters, read]
  rfl

/-- A JSON text that is read. -/
theorem Json.document_of_read {cs : List Char} {doc : Document}
    (read : Json.read (String.ofList cs) = .ok doc) : Json.document cs = .ok doc := by
  rw [Json.read, String.toList_ofList] at read
  split at read
  · rename_i doc' parsed
    rw [parsed, Except.ok.inj read]
  · cases read
  · cases read

/-- What is returned is what was returned before its errors were changed. -/
theorem eq_ok_of_mapError {ε ε' α : Type} {f : ε → ε'} {x : Except ε α} {a : α}
    (returned : x.mapError f = .ok a) : x = .ok a := by
  cases x with
  | error error => cases returned
  | ok b => exact congrArg Except.ok (Except.ok.inj returned)

/-- **A JSON file that is accepted** has a layout that denotes what is read. -/
theorem exists_layout_of_loadFilters {files : Files} {path text : String}
    (isJson : isJsonPath (normalPath path) = true)
    (given : files (normalPath path) = .ok (Utf8.encode text)) {filters : List Filter}
    (loaded : loadFilters files path = .ok filters) :
    ∃ layout : Layout, layout.chars = Text.lineFeeds text.toList ∧
      readConfig files path = .ok (.ofDocument layout.tree.document) := by
  have named : '\x00' ∉ (normalPath path).toList := by
    intro zero
    rw [loadFilters, readConfig_of_error (by rw [readText, if_pos (by simpa using zero)])] at loaded
    cases loaded
  have value := readConfig_of_json (readText_of_text named given) isJson
  cases read : Json.read (String.ofList (Text.lineFeeds text.toList)) with
  | error error =>
    rw [read] at value
    rw [loadFilters, value] at loaded
    cases loaded
  | ok doc =>
    obtain ⟨layout, spelt, rfl⟩ :=
      Json.exists_layout_of_document (Json.document_of_read read)
    rw [read] at value
    exact ⟨layout, spelt, value⟩

/-- Values that are spelt otherwise are the same if each number is written as its JSON text. -/
theorem Filter.eq_of_respelt {worded : Literal → Prop} {filters filters' : List Filter}
    (each : List.Forall₂ (Filter.Respelt worded) filters filters')
    (written : ∀ l, worded l → String.ofList l.chars = Document.text (.number l.number)) :
    filters' = filters := by
  have same : ∀ s s', Respelling worded s s' → s = s' := by
    rintro s s' (rfl | ⟨l, isWorded, rfl, rfl⟩)
    · rfl
    · exact (written l isWorded).symm
  induction each with
  | nil => rfl
  | cons first rest ih =>
    obtain ⟨query, operation, values⟩ := first
    have texts := List.forall₂_eq_eq_eq ▸ values.imp same
    rename_i filter filter' _ _
    obtain ⟨_, _, _, ne⟩ := filter
    obtain ⟨_, _, _, ne'⟩ := filter'
    cases query
    cases operation
    cases texts
    rw [ih]

/-- **What YAML loads of a layout** from which JSON loads the given filters: nothing, if the text is
malformed there; the same filters, but for the texts of numbers that are of another form than
YAML's; or nothing as well, if all there is for the filters is such a number and a zero. -/
inductive Json.Layout.InYaml (layout : Layout) (path : String) (filters : List Filter) :
    Except ConfigError (List Filter) → Prop
  | malformed (foreign : layout.isYaml = false) :
      InYaml layout path filters (.error (.yaml path .malformed))
  | respelt {filters' : List Filter} (reads : layout.isYaml = true)
      (each : List.Forall₂ (Filter.Respelt layout.tree.Worded) filters filters') :
      InYaml layout path filters (.ok filters')
  | zero {l : Literal} (reads : layout.isYaml = true) (none : filters = [])
      (worded : layout.tree.Worded l) (zero : l.number.same (.int 0) = true) :
      InYaml layout path filters (.error (.filters (.faults [⟨[], .listExpected⟩])))

/-- The value of a layout that YAML reads, for filters that JSON loads from it. -/
theorem Json.Layout.inYaml_filtersOfValue {layout : Layout} (path : String)
    (reads : layout.isYaml = true) (whole : ∀ s ∈ layout.tree.scalars, s.isWhole = true)
    {filters : List Filter}
    (accepted : filtersOfValue (.ofDocument layout.tree.document) = .ok filters) :
    layout.InYaml path filters ((filtersOfValue layout.tree.yaml).mapError .filters) := by
  have respelt : Value.Respelt layout.tree.Worded (.ofDocument layout.tree.document)
      layout.tree.yaml :=
    Json.respelt_tree layout.tree fun s mem =>
      ⟨whole s mem, fun l same worded => ⟨same ▸ mem, worded⟩⟩
  obtain ⟨filters', accepted', each⟩ | ⟨none, refused, l, worded, zero⟩ :=
    filtersOfValue_of_respelt respelt accepted
  · rw [accepted']
    exact .respelt reads each
  · rw [refused]
    exact .zero reads none worded zero

/-- **Filters in JSON and in YAML.** The text of a JSON file that is accepted is laid out in some
way, so that the layout denotes what is read. If no character in it but a line feed ends a line and
no string has the codes of a pair of halves, then the layout says what is loaded under a name for
YAML. It is the same if the layout is read there and each number of another form than YAML's is
written as its JSON text. -/
theorem loadFilters_formats {files : Files} {json yaml text : String}
    (isJson : isJsonPath (normalPath json) = true) (isYaml : isJsonPath (normalPath yaml) = false)
    (named : '\x00' ∉ (normalPath yaml).toList)
    (given : files (normalPath json) = .ok (Utf8.encode text))
    (given' : files (normalPath yaml) = .ok (Utf8.encode text)) {filters : List Filter}
    (loaded : loadFilters files json = .ok filters) :
    (∃ layout : Layout, layout.chars = Text.lineFeeds text.toList ∧
      readConfig files json = .ok (.ofDocument layout.tree.document)) ∧
    ∀ layout : Layout, layout.chars = Text.lineFeeds text.toList →
      readConfig files json = .ok (.ofDocument layout.tree.document) →
      Yaml.Unbroken layout.chars → (∀ s ∈ layout.tree.scalars, s.isWhole = true) →
        layout.InYaml (normalPath yaml) filters (loadFilters files yaml) ∧
        (layout.isYaml = true →
          (∀ l, layout.tree.Worded l → String.ofList l.chars = Document.text (.number l.number)) →
          loadFilters files yaml = .ok filters) := by
  refine ⟨exists_layout_of_loadFilters isJson given loaded, ?_⟩
  intro layout spelt read unbroken whole
  have accepted : filtersOfValue (.ofDocument layout.tree.document) = .ok filters := by
    rw [loadFilters_of_readConfig read] at loaded
    exact eq_ok_of_mapError loaded
  have inYaml : layout.InYaml (normalPath yaml) filters (loadFilters files yaml) := by
    have read' := readConfig_of_yaml (readText_of_text named given') isYaml
    rw [← spelt, Json.read_layout layout unbroken] at read'
    cases reads : layout.isYaml with
    | true =>
      rw [reads] at read'
      rw [loadFilters_of_readConfig read']
      exact layout.inYaml_filtersOfValue _ reads whole accepted
    | false =>
      rw [reads] at read'
      rw [loadFilters, read']
      exact .malformed reads
  refine ⟨inYaml, fun reads written => ?_⟩
  generalize loadFilters files yaml = result at inYaml ⊢
  cases inYaml with
  | malformed foreign => cases reads.symm.trans foreign
  | respelt _ each => rw [Filter.eq_of_respelt each written]
  | zero _ _ worded zero =>
    exact absurd (written _ worded) (Json.Literal.ne_text_of_zero worded.2 zero)

/-- The characters of a text, each of which stands for itself. -/
def Json.plainPieces (s : String)
    (ordinary : (s.toList.all fun c => c ≠ '"' ∧ c ≠ '\\' ∧ 0x20 ≤ c.toNat) = true) : List Piece :=
  s.toList.attach.map fun c => .plain c.1 (List.all_iff_forall_prop.1 ordinary c.1 c.2)

/-- A large number, which YAML takes for a text but which is written as its JSON text. -/
theorem loadFilters_formats_large :
    let config : Document := .array [.object [("query", .string ""), ("operation", .string "="),
      ("values", .array [.number (.float (.ofDecimal false 1 16))])]]
    let files : Files := fun _ => .ok (Utf8.encode config.text)
    let filters : List Filter := [⟨"", .equal, ["1e+16"], by decide⟩]
    isJsonPath (normalPath "f.json") = true ∧ isJsonPath (normalPath "f.yaml") = false ∧
      '\x00' ∉ (normalPath "f.yaml").toList ∧ loadFilters files "f.json" = .ok filters ∧
      loadFilters files "f.yaml" = .ok filters := by
  intro config files filters
  have isJson : isJsonPath (normalPath "f.json") = true := by decide +kernel
  have isYaml : isJsonPath (normalPath "f.yaml") = false := by decide +kernel
  have named : '\x00' ∉ (normalPath "f.yaml").toList := by decide +kernel
  have legible : config.Legible := by
    refine .array (List.forall_mem_singleton.2 (.object (by decide) ?_))
    simp only [List.forall_mem_cons]
    exact ⟨.string _, .string _, .array (List.forall_mem_singleton.2 (.number trivial)), by simp⟩
  have read : readConfig files "f.json" = .ok (.ofDocument config) :=
    readConfig_text legible (by decide +kernel) isJson rfl
  have accepted : filtersOfValue (.ofDocument config) = .ok filters :=
    filtersOfValue_eq_ok_iff.2 (.list (.cons (Filter.ofValue_eq_ok_iff.1 (by decide +kernel)) .nil))
  have loaded : loadFilters files "f.json" = .ok filters := by
    rw [loadFilters_of_readConfig read, accepted]
    rfl
  -- the layout of the text
  let none : Space := ⟨[], List.forall_mem_nil _⟩
  let one : Space := ⟨[' '], List.forall_mem_singleton.2 rfl⟩
  let sixteen : Json.Exponent :=
    ⟨false, some false, [1, 6], by simp [Number.AreDigits], by decide⟩
  let large : Literal :=
    ⟨false, [1], [], some sixteen, by simp [Number.AreDigits], nofun, by decide, by simp, nofun⟩
  let members : Members :=
    .more ⟨Json.plainPieces "query" (by decide), none, one⟩ (.scalar (.string [])) none one
      (.more ⟨Json.plainPieces "operation" (by decide), none, one⟩
        (.scalar (.string (Json.plainPieces "=" (by decide)))) none one
        (.last ⟨Json.plainPieces "values" (by decide), none, one⟩
          (.array none (.last (.scalar (.number large)) none)) none))
  let layout : Layout := ⟨none, .array none (.last (.object none members) none), none⟩
  have spelt : layout.chars = Text.lineFeeds config.text.toList := by decide +kernel
  have denotes : layout.tree.document = config := rfl
  have unbroken : Yaml.Unbroken layout.chars :=
    List.all_iff_forall_prop.1 (by decide +kernel)
  have written : ∀ l, layout.tree.Worded l →
      String.ofList l.chars = Document.text (.number l.number) := by
    rintro l ⟨mem, -⟩
    have same : Scalar.number l = .number large := by
      simpa [layout, members, Tree.scalars, Items.scalars, Members.scalars] using mem
    cases same
    decide +kernel
  obtain ⟨-, formats⟩ := loadFilters_formats isJson isYaml named rfl rfl loaded
  obtain ⟨-, agree⟩ :=
    formats layout spelt (denotes ▸ read) unbroken (by decide +kernel)
  exact ⟨isJson, isYaml, named, loaded, agree (by decide +kernel) written⟩

/-- **A number without the sign of its exponent is loaded as another text**, and with a tab in it
the text is not loaded. -/
theorem loadFilters_formats_other :
    let number := "[\x7b\"query\": \"\", \"operation\": \"=\", \"values\": [1e3]\x7d]"
    let tab := "[\t]"
    let load (text path : String) := (loadFilters (fun _ => .ok (Utf8.encode text)) path).toOption
    load number "f.json" = some [⟨"", .equal, ["1000.0"], by decide⟩] ∧
      load number "f.yaml" = some [⟨"", .equal, ["1e3"], by decide⟩] ∧
      load tab "f.json" = some [] ∧ load tab "f.yaml" = none := by
  decide +kernel

end DocumentFilter
