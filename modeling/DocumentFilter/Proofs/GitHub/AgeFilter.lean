import DocumentFilter.Proofs.Config.Scalars
import DocumentFilter.Proofs.GitHub.Age
import DocumentFilter.Proofs.Query.Canonical
import DocumentFilter.Proofs.Query.Locations
import DocumentFilter.Proofs.Time.Universal

/-!
# The age of an item as a filter

Whether an item is younger than an instant can be asked in two ways: directly, as the listings
do, or by a filter that says that a field is greater than the text of the instant. The filter
goes a long way round. Its query is written and read again, the field is looked up by a step,
and both sides of the comparison are taken for what their texts look like. What comes out is the
same, because the text of the instant looks like nothing but a date
(`DocumentFilter.Scalar.ofText_utcText`), and a date is above another in the order of instants.

Two things the filter does in its own way. It looks into an array, and it takes a text for a
number first, so that a date written in digits alone is none. Apart from these the two agree.

* `DocumentFilter.GitHub.ageFilter`: the filter, and `DocumentFilter.GitHub.ofValue_ageSettings`
  that it is a valid one;
* `DocumentFilter.GitHub.matchesOn_ageFilter_iff`: what it matches, arrays and digits included;
* `DocumentFilter.GitHub.isAfter_matchesAll`: **the two ways agree**.
-/

namespace DocumentFilter

/-! ### What is taken for a date -/

/-- The text of an instant is taken for that instant. -/
theorem Scalar.ofText_utcText (moment : Moment) :
    ofText moment.utcText = ⟨.date moment, moment.utcText⟩ := by
  rw [moment.utcText_eq]
  exact ofText_timestamp moment.offsetLegible_atUtc moment.instant?_atUtc

/-- A text is taken for a date if it is no number and denotes an instant. -/
theorem Scalar.sense_ofText_eq_date_iff {text : String} {moment : Moment} :
    (ofText text).sense = .date moment ↔
      Number.ofText? text = none ∧ Moment.ofText text = .ok moment := by
  rw [ofText, Moment.ofText?]
  cases Number.ofText? text with
  | some n => simp
  | none =>
    cases Moment.ofText text with
    | ok found => simp [Except.toOption]
    | error error => simp [Except.toOption]

namespace Document

/-- A document is above the text of an instant if it is taken for a later one. -/
theorem exceeds_utcText_iff {doc : Document} {since : Moment} :
    doc.Exceeds since.utcText ↔ ∃ a moment, Scalar.ofDocument doc = .ok a ∧
      a.sense = .date moment ∧ since.before moment = true := by
  rw [Exceeds, Scalar.ofText_utcText]
  constructor
  · rintro ⟨a, scalar, below⟩
    cases below with
    | numbers left => cases left
    | dates left right before =>
      cases left
      exact ⟨a, _, scalar, right, before⟩
  · rintro ⟨a, moment, scalar, sense, before⟩
    exact ⟨a, scalar, .dates rfl sense before⟩

/-- Only a text is taken for a date. -/
theorem exceeds_utcText_iff_text {doc : Document} {since : Moment} :
    doc.Exceeds since.utcText ↔ ∃ text moment, doc = .string text ∧
      Number.ofText? text = none ∧ Moment.ofText text = .ok moment ∧
      since.before moment = true := by
  rw [exceeds_utcText_iff]
  constructor
  · rintro ⟨a, moment, scalar, sense, before⟩
    cases doc with
    | string text =>
      cases scalar
      obtain ⟨no_number, read⟩ := Scalar.sense_ofText_eq_date_iff.1 sense
      exact ⟨text, moment, rfl, no_number, read, before⟩
    | array items => cases scalar
    | object fields => cases scalar
    | _ =>
      cases scalar
      cases sense
  · rintro ⟨text, moment, rfl, no_number, read, before⟩
    exact ⟨_, moment, rfl, Scalar.sense_ofText_eq_date_iff.2 ⟨no_number, read⟩, before⟩

end Document

/-! ### A single key -/

/-- The text of a key is read as a query of this key alone. -/
theorem Query.parse_key {name : String} (ne : name ≠ "") :
    parse (String.ofList (Step.chars (.key name))) =
      .ok ⟨String.ofList (Step.chars (.key name)), [.key name]⟩ := by
  have text : Query.text ⟨"", [.key name]⟩ = String.ofList (Step.chars (.key name)) := by
    rw [Query.text, stepsChars, tailChars, List.append_nil]
  have wellFormed : WellFormed [.key name] :=
    ⟨⟨name, [], rfl⟩, Nat.zero_le 1, List.forall_mem_singleton.2 ne⟩
  rw [← text]
  exact parse_text wellFormed

/-- A key leads to its field. -/
theorem Query.resolveSteps_key (name : String) (doc : Document) :
    resolveSteps [.key name] doc = (doc.field? name).toList := by
  rw [resolveSteps, advance, advance, List.flatMap_singleton, Step.apply]

namespace GitHub

/-! ### The filter -/

/-- The query for a field: the text of its key. -/
def fieldQuery (field : String) : String :=
  String.ofList (Step.chars (.key field))

/-- **The filter for the age of an item**: that the field is greater than the text of the
instant. -/
def ageFilter (field : String) (since : Moment) : Filter :=
  .single (fieldQuery field) .greater since.utcText

/-- The settings of the filter are valid. -/
theorem ofValue_ageSettings (field : String) (since : Moment) :
    Filter.ofValue (Filter.settings (fieldQuery field) ">" (.list [.string since.utcText])) =
      .ok (ageFilter field since) :=
  have text : Filter.targetOf (.string since.utcText) = .ok since.utcText := rfl
  Filter.ofValue_settings _ (by decide)
    (Filter.targetsOf_eq text _ (List.mem_cons_of_mem _ (List.mem_singleton_self _)))

/-- What the filter matches: a document with a text for a later instant among the leaves of the
field, the texts that are numbers apart. -/
theorem matchesOn_ageFilter_iff {field : String} (named : field ≠ "") {since : Moment}
    {doc : Document} :
    (ageFilter field since).MatchesOn doc ↔ ∃ value text moment, doc.field? field = some value ∧
      .string text ∈ value.leaves ∧ Number.ofText? text = none ∧
      Moment.ofText text = .ok moment ∧ since.before moment = true := by
  have read : Query.parse (ageFilter field since).query = .ok ⟨fieldQuery field, [.key field]⟩ :=
    Query.parse_key named
  rw [matchesOn_iff read, matched_verdict_iff_holds, Query.resolve, Query.resolveSteps_key]
  constructor
  · rintro ⟨value, found, leaf, mem, -, target, target_mem, exceeds⟩
    rw [List.mem_singleton.1 target_mem, Document.exceeds_utcText_iff_text] at exceeds
    obtain ⟨text, moment, rfl, no_number, read, before⟩ := exceeds
    exact ⟨value, text, moment, Option.mem_toList.1 found, mem, no_number, read, before⟩
  · rintro ⟨value, text, moment, found, mem, no_number, read, before⟩
    exact ⟨value, Option.mem_toList.2 found, .string text, mem, rfl, _,
      List.mem_singleton_self _,
      Document.exceeds_utcText_iff_text.2 ⟨text, moment, rfl, no_number, read, before⟩⟩

/-! ### Agreement -/

/-- A field that the filter neither looks into nor takes for a number. -/
def IsPlainAge (value : Document) : Prop :=
  value.kind ≠ .array ∧ ∀ text, value = .string text → Number.ofText? text = none

/-- The filter matches what is younger, where the field is plain. -/
theorem matchesOn_ageFilter_iff_isYounger {field : String} (named : field ≠ "") {since : Moment}
    {doc : Document} (plain : ∀ value, doc.field? field = some value → IsPlainAge value) :
    (ageFilter field since).MatchesOn doc ↔ isYounger field since doc = true := by
  rw [matchesOn_ageFilter_iff named, isYounger_eq_true_iff]
  constructor
  · rintro ⟨value, text, moment, found, mem, -, read, before⟩
    -- what is no array is its own only leaf
    have leaves : value.leaves = [value] := by
      have no_array := (plain value found).1
      cases value with
      | array items => exact absurd rfl no_array
      | _ => simp only [Document.leaves]
    rw [leaves, List.mem_singleton] at mem
    exact ⟨text, moment, mem ▸ found, read, before⟩
  · rintro ⟨text, moment, found, read, before⟩
    have leaf : .string text ∈ (Document.string text).leaves := by
      simp only [Document.leaves, List.mem_singleton]
    exact ⟨_, text, moment, found, leaf, (plain _ found).2 text rfl, read, before⟩

/-- **The two ways to ask for the age of an item agree.** For an object and a field with a name,
whose value is neither an array nor a text that is a number: the filter is a valid one, and
asking directly and matching the filter both return, with the same answer. -/
theorem isAfter_matchesAll {fields : List (String × Document)} {field : String}
    (named : field ≠ "") (since : Moment)
    (plain : ∀ value, Document.lookup field fields = some value → IsPlainAge value) :
    ∃ filter, Filter.ofValue (Filter.settings (fieldQuery field) ">"
        (.list [.string since.utcText])) = .ok filter ∧
      ∃ after, (isAfter field since (.object fields)).outcome = .ok after ∧
        (matchesAll (.object fields) [filter]).outcome = .ok after := by
  have wellFormed : ∀ filter ∈ [ageFilter field since], filter.WellFormed :=
    List.forall_mem_singleton.2 ⟨_, Query.parse_key named⟩
  obtain ⟨matched, verdict, all⟩ := exists_matchesAll (.object fields) wellFormed
  have same : matched = isYounger field since (.object fields) := by
    rw [Bool.eq_iff_iff, all, List.forall_mem_singleton]
    exact matchesOn_ageFilter_iff_isYounger named plain
  exact ⟨_, ofValue_ageSettings field since, _, (ends_isAfter (not_unaskable_of_isObject rfl field)
    since).outcome_some, same ▸ verdict⟩

/-- A field whose name has to be escaped, with an offset that makes it the next day. -/
theorem isAfter_matchesAll_escaped :
    let field := "a\"\\"
    let fields : List (String × Document) :=
      [("other", .null), (field, .string "2022-09-30T23:30:00-01:00")]
    let since : Moment := ⟨738428 * Clock.dayMicros, by decide⟩
    field ≠ "" ∧ (∀ value, Document.lookup field fields = some value → IsPlainAge value) ∧
      ∃ filter, Filter.ofValue (Filter.settings (fieldQuery field) ">"
          (.list [.string since.utcText])) = .ok filter ∧
        ∃ after, (isAfter field since (.object fields)).outcome = .ok after ∧
          (matchesAll (.object fields) [filter]).outcome = .ok after := by
  intro field fields since
  have named : field ≠ "" := by decide
  have plain : ∀ value, Document.lookup field fields = some value → IsPlainAge value := by
    intro value found
    cases found
    refine ⟨by decide, ?_⟩
    rintro text ⟨⟩
    decide
  exact ⟨named, plain, isAfter_matchesAll named since plain⟩

end GitHub

end DocumentFilter
