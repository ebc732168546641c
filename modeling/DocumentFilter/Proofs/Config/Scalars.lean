import DocumentFilter.Proofs.Config.Accepted
import DocumentFilter.Proofs.Filter.Targets
import DocumentFilter.Proofs.Time.Printing
import DocumentFilter.Yaml.Value

/-!
# Scalars as targets

The values of a filter are texts, but a configuration may give any scalar for one: it is written
as a text when the configuration is read, and the text is taken for something again when it is
compared. What is written is the text of the scalar, so that a document is written as a text that
it equals: by `DocumentFilter.Scalar.same_ofDocument` it equals the same texts as its own text
does, and that equals itself.

A day or a timestamp is no document. Its text is read back by
`DocumentFilter.Timestamp.ofText_isoText`, but a text is asked first whether it is a number. The
dash after the year says that it is none.

* `DocumentFilter.Filter.targetOf_ofDocument`: what is written for a scalar;
* `DocumentFilter.Number.ofText?_dashed`: a dash is in no number that starts with a digit;
* `DocumentFilter.Filter.ofValue_scalar`: nothing is lost.
-/

namespace DocumentFilter

/-! ### Dates are no numbers -/

namespace Number

/-- Digits are read up to where they stop, whatever they are. -/
theorem spanDigits_of_digits {cs rest : List Char}
    (digits : ∀ c ∈ cs, ∃ d, Text.asciiDigit? c = some d) (stops : Stops rest) :
    ∃ ds, spanDigits (cs ++ rest) = (ds, rest) := by
  induction cs with
  | nil =>
    refine ⟨[], ?_⟩
    cases rest with
    | nil => rfl
    | cons c tail => rw [List.nil_append, spanDigits, stops c tail rfl]
  | cons c cs ih =>
    obtain ⟨⟨d, digit⟩, others⟩ := List.forall_mem_cons.1 digits
    obtain ⟨ds, read⟩ := ih others
    refine ⟨d :: ds, ?_⟩
    rw [List.cons_append, spanDigits, Text.digit?_of_asciiDigit? digit, read]

/-- **Digits with a dash behind them** are no number, whatever follows. -/
theorem ofText?_dashed {cs rest : List Char} (ne : cs ≠ [])
    (digits : ∀ c ∈ cs, ∃ d, Text.asciiDigit? c = some d) (ends : EndsInDigit rest) :
    ofText? (String.ofList (cs ++ '-' :: rest)) = none := by
  have starts := (digit_ends ne digits).1.append ('-' :: rest)
  have stripped : Text.strip (cs ++ '-' :: rest) = cs ++ '-' :: rest :=
    strip_signed false starts ((ends.cons '-').append cs)
  obtain ⟨ds, read⟩ := spanDigits_of_digits digits (stops_cons (c := '-') (by decide) rest)
  have unsigned : sign (cs ++ '-' :: rest) = (false, cs ++ '-' :: rest) := by
    obtain ⟨c, d, others, shape, digit⟩ := starts
    rw [shape, sign_of_digit digit]
  have whole : integer? (cs ++ '-' :: rest) = none := by
    rw [integer?, unsigned]
    simp only [read]
  have decimal : decimal? (cs ++ '-' :: rest) = none := by
    -- the dash is neither a point nor the mark of an exponent
    have unpointed : fraction ('-' :: rest) = ([], '-' :: rest) := rfl
    have refused : exponent? ('-' :: rest) = none := rfl
    rw [decimal?, unsigned]
    simp only [read, unpointed, refused, Option.map_none, ite_self]
  rw [ofText?, String.toList_ofList, stripped, whole, Option.none_or, rounded?, decimal]

/-- A date is no number, nor is what goes on behind a date. -/
theorem ofText?_of_dateText {cs rest : List Char} {date : Date} (days : Iso.DateText cs date)
    (ends : rest = [] ∨ EndsInDigit rest) : ofText? (String.ofList (cs ++ rest)) = none := by
  cases days with
  | @intro ys ms ds _ _ _ years _ days =>
    have ne : ys ≠ [] := by
      rintro rfl
      cases years.length
    have tail : EndsInDigit (ms ++ '-' :: ds ++ rest) := by
      rcases ends with rfl | ends
      · rw [List.append_nil]
        exact ((days.ends (by decide)).2.cons '-').append ms
      · exact ends.append _
    rw [List.append_assoc, List.cons_append]
    exact ofText?_dashed ne (fun c mem => years.digit mem) tail

end Number

/-- **A day is taken for its midnight** when its text is compared. -/
theorem Scalar.ofText_day (day : Day) :
    ofText (String.ofList day.date.isoText) =
      ⟨.date day.midnight, String.ofList day.date.isoText⟩ := by
  have no_number := Number.ofText?_of_dateText day.dateText (.inl rfl)
  rw [List.append_nil] at no_number
  rw [ofText, no_number, Moment.ofText?_dateText]

/-- **A timestamp is taken for its instant** when its text is compared. -/
theorem Scalar.ofText_timestamp {t : Timestamp} {moment : Moment}
    (legible : Iso.OffsetLegible t.offset) (instant : t.instant? = some moment) :
    ofText (String.ofList t.isoText) = ⟨.date moment, String.ofList t.isoText⟩ := by
  have last := Iso.endsInDigit_append t.wall.clockText (offsetText_getD legible)
  have no_number : Number.ofText? (String.ofList t.isoText) = none := by
    rw [Timestamp.isoText_eq]
    exact Number.ofText?_of_dateText t.wall.dateText (.inr (last.cons 'T'))
  rw [ofText, no_number, Moment.ofText?_isoText legible instant]

/-! ### Filters with one target -/

namespace Filter

/-- The mapping that configures a filter. -/
def settings (query operation : String) (values : Value) : Value :=
  .map [(.string "query", .string query), (.string "operation", .string operation),
    (.string "values", values)]

/-- The filter with one target. -/
def single (query : String) (operation : Operation) (target : String) : Filter :=
  ⟨query, operation, [target], List.cons_ne_nil target []⟩

/-- A value that is written as a text is the only target, alone or as the only one of a list. -/
theorem targetsOf_eq {value : Value} {target : String} (text : targetOf value = .ok target) :
    ∀ form ∈ [value, .list [value]],
      targetsOf form = .ok ⟨[target], List.cons_ne_nil target []⟩ := by
  have alone : targetsOf value = .ok ⟨[target], List.cons_ne_nil target []⟩ :=
    targetsOf_eq_ok_iff.2 (.single text)
  have listed : targetsOf (.list [value]) = .ok ⟨[target], List.cons_ne_nil target []⟩ :=
    targetsOf_eq_ok_iff.2 (.list (.cons text .nil))
  exact List.forall_mem_cons.2 ⟨alone, List.forall_mem_singleton.2 listed⟩

/-- Settings describe the filter that has them. -/
theorem describes_settings {filter : Filter} {word : String} {given : Value}
    (named : Operation.ofText? word = some filter.operation) (gives : given.Gives filter.values) :
    (settings filter.query word given).Describes filter := by
  have differ : "query" ≠ "operation" ∧ "query" ≠ "values" ∧ "operation" ≠ "values" := by decide
  refine .intro ?_ ?_ named ?_ gives
  · rw [Value.entry?, if_pos rfl]
  · rw [Value.entry?, if_neg differ.1, Value.entry?, if_pos rfl]
  · rw [Value.entry?, if_neg differ.2.1, Value.entry?, if_neg differ.2.2, Value.entry?, if_pos rfl]

/-- The filter that its settings describe. -/
theorem ofValue_settings {word target : String} {operation : Operation} {given : Value}
    (query : String) (named : Operation.ofText? word = some operation)
    (targets : targetsOf given = .ok ⟨[target], List.cons_ne_nil target []⟩) :
    ofValue (settings query word given) = .ok (single query operation target) :=
  have gives : given.Gives (single query operation target).values := targetsOf_eq_ok_iff.1 targets
  ofValue_eq_ok_iff.2 (describes_settings named gives)

/-- **What is written for a document** is its text. -/
theorem targetOf_ofDocument {doc : Document} (short : doc.IsShort) {a : Scalar}
    (scalar : Scalar.ofDocument doc = .ok a) : targetOf (.ofDocument doc) = .ok a.text := by
  cases doc with
  | string s =>
    cases scalar
    rw [Scalar.text_ofText]
    simp only [Value.ofDocument, targetOf]
  | number n =>
    cases scalar
    have writable : n.isWritable = true := by
      cases n with
      | int n => exact decide_eq_true short
      | float x => rfl
    exact if_pos writable
  | array items => cases scalar
  | object fields => cases scalar
  | _ =>
    cases scalar
    simp only [Value.ofDocument, targetOf]

end Filter

/-- **A document equals its own text.** -/
theorem Document.equals_text {doc : Document} (short : doc.IsShort) {a : Scalar}
    (scalar : Scalar.ofDocument doc = .ok a) : doc.equals a.text = true := by
  rw [equals, scalar]
  exact (Scalar.same_ofDocument short scalar a.text).trans (Scalar.equivalence_same.refl a.text)

/-! ### Matching a scalar -/

section Matching

variable {doc : Document} (scalar : doc.isCollection = false)
include scalar

/-- A scalar is looked at once, as it is. -/
theorem Operation.verdict_scalar {operation : Operation} (not_contains : operation ≠ .contains)
    (targets : List String) :
    operation.verdict [doc] targets = .upTo (attempts operation targets doc) := by
  rw [verdict, List.flatMap_singleton, subjects, if_neg not_contains,
    Document.leaves_scalar scalar, List.flatMap_singleton]

/-- The verdict on a scalar and a target that it equals: a match for `=`, and none for `!=`. -/
theorem Operation.verdict_of_equals {target : String} (equals : doc.equals target = true) :
    verdict .equal [doc] [target] = ⟨true, [.matched doc target .equal]⟩ ∧
      verdict .notEqual [doc] [target] = .none := by
  have object := Document.isObject_of_scalar scalar
  constructor
  · have found : compare .equal doc target = .ok (some true) := by
      rw [compare_equal scalar, equals]
    have once : attempts .equal [target] doc = [attempt .equal doc target] := by
      simp [attempts, object]
    rw [verdict_scalar scalar (by decide), once, Verdict.upTo_singleton, attempt_eq found]
    rfl
  · have once : attempts .notEqual [target] doc = [.none] := by
      simp [attempts, object, equals, Verdict.none]
    rw [verdict_scalar scalar (by decide), once, Verdict.upTo_singleton]

/-- A scalar matches a target that it equals under `=` and does not under `!=`, strictly or
not. -/
theorem matchesValues_of_equals {target : String} (equals : doc.equals target = true)
    (strict : Bool) :
    (matchesValues strict [doc] .equal [target]).outcome = .ok true ∧
      (matchesValues strict [doc] .notEqual [target]).outcome = .ok false := by
  obtain ⟨matched, unmatched⟩ := Operation.verdict_of_equals scalar equals
  simp only [matchesValues, evaluateNoting, evaluate_eq, matched, unmatched]
  cases strict with
  | true => exact ⟨rfl, rfl⟩
  | false => exact ⟨rfl, rfl⟩

end Matching

/-! ### Nothing is lost -/

/-- The instant that a day or a timestamp stands for: the midnight of the day in universal time,
and the instant of the timestamp where it lies in the years 1 to 9999. -/
inductive Value.Denotes : Value → Moment → Prop
  | day (day : Day) : Denotes (.date day) day.midnight
  | timestamp {t : Timestamp} {moment : Moment} (legible : Iso.OffsetLegible t.offset)
      (instant : t.instant? = some moment) : Denotes (.timestamp t) moment

namespace Yaml

/-- An offset in a YAML text is some number of minutes. -/
theorem exists_minutes {cs : List Char} {offset : Int} (h : offsetText? cs = some (some offset)) :
    ∃ minutes : Int, offset = minutes * 60000000 := by
  have size : ∀ {cs : List Char} {size : Int}, offsetSize? cs = some size →
      ∃ minutes : Int, size = minutes * 60000000 := by
    intro cs size h
    obtain ⟨⟨hour, rest⟩, -, h⟩ := Option.bind_eq_some_iff.1 h
    dsimp only at h
    split at h
    · exact ⟨hour * 60, by rw [← Option.some.inj h]; omega⟩
    · simp only [Option.bind_eq_bind, Option.bind_eq_some_iff, Prod.exists] at h
      obtain ⟨_, -, minute, _, -, h⟩ := h
      split at h
      · exact ⟨_, (Option.some.inj h).symm⟩
      · cases h
  rw [offsetText?] at h
  split at h
  · cases h
  · split at h
    · cases h
      exact ⟨0, rfl⟩
    · obtain ⟨ahead, read, same⟩ := Option.map_eq_some_iff.1 h
      cases same
      exact size read
    · obtain ⟨behind, read, same⟩ := Option.map_eq_some_iff.1 h
      cases same
      obtain ⟨minutes, rfl⟩ := size read
      exact ⟨-minutes, (Int.neg_mul ..).symm⟩
    · cases h

theorem exists_minutes_of_timestampText? {cs : List Char} {date : Date} {clock : Clock}
    {offset : Int} (h : timestampText? cs = some ⟨date, some (clock, some offset)⟩) :
    ∃ minutes : Int, offset = minutes * 60000000 := by
  simp only [timestampText?, timeText?, Option.bind_eq_bind, Option.bind_eq_some_iff,
    Prod.exists] at h
  obtain ⟨year, _, -, _, -, month, _, -, _, -, day, _, -, h⟩ := h
  split at h
  · cases h
  · simp only [Option.bind_eq_some_iff, Prod.exists, Option.pure_def] at h
    obtain ⟨_, -, _, _, ⟨_, _, -, _, -, _, _, -, _, -, _, _, -, _, zone, same⟩, same'⟩ := h
    cases same
    cases same'
    exact exists_minutes zone

/-- **A date in a YAML text** is a day, or a timestamp whose offset is legible: it is less than a
day and some number of minutes. -/
theorem timestampValue_legible {cs : List Char} {value : Value}
    (h : timestampValue cs = .ok value) :
    (∃ day, value = .date day) ∨ ∃ t, value = .timestamp t ∧ Iso.OffsetLegible t.offset := by
  rw [timestampValue] at h
  split at h
  · cases h
  · split at h
    · cases h
      exact .inl ⟨_, rfl⟩
    · cases h
  · rename_i date clock offset parts
    split at h
    · split at h
      · rename_i range
        cases h
        refine .inr ⟨_, rfl, range, fun micros mem => ?_⟩
        cases mem
        obtain ⟨minutes, rfl⟩ := exists_minutes_of_timestampText? parts
        omega
      · cases h
    · cases h

end Yaml

/-- A value that stands for an instant is written as a text that is taken for it. -/
theorem Value.Denotes.exists_target {value : Value} {moment : Moment}
    (denotes : value.Denotes moment) :
    ∃ target, Filter.targetOf value = .ok target ∧
      Scalar.ofDocument (.string target) = .ok ⟨.date moment, target⟩ := by
  cases denotes with
  | day day => exact ⟨_, rfl, congrArg Except.ok (Scalar.ofText_day day)⟩
  | timestamp legible instant =>
    exact ⟨_, rfl, congrArg Except.ok (Scalar.ofText_timestamp legible instant)⟩

/-- **A scalar may be given for a value.** Alone or as the only one of a list it is a single
target. Where it is one of a document, that document matches the target under `=` and not under
`!=`. Where it is a day or a timestamp, the target is taken for its instant; every one that a
YAML text holds has a legible offset. -/
theorem Filter.ofValue_scalar (query : String) :
    (∀ {doc : Document}, doc.isCollection = false → doc.IsShort → ∃ target,
      (∀ form ∈ [Value.ofDocument doc, .list [.ofDocument doc]],
        ofValue (settings query "=" form) = .ok (single query .equal target)) ∧
      ∀ strict, (matchesValues strict [doc] .equal [target]).outcome = .ok true ∧
        (matchesValues strict [doc] .notEqual [target]).outcome = .ok false) ∧
    (∀ {value : Value} {moment : Moment}, value.Denotes moment → ∃ target,
      (∀ form ∈ [value, .list [value]],
        ofValue (settings query "=" form) = .ok (single query .equal target)) ∧
      Scalar.ofDocument (.string target) = .ok ⟨.date moment, target⟩) ∧
    ∀ {cs : List Char} {value : Value}, Yaml.timestampValue cs = .ok value →
      (∃ day, value = .date day) ∨
        ∃ t, value = .timestamp t ∧ Iso.OffsetLegible t.offset := by
  have read : ∀ {value : Value} {target : String}, targetOf value = .ok target →
      ∀ form ∈ [value, .list [value]],
        ofValue (settings query "=" form) = .ok (single query .equal target) := by
    intro value target text form mem
    exact ofValue_settings query (by decide) (targetsOf_eq text form mem)
  refine ⟨?_, ?_, Yaml.timestampValue_legible⟩
  · intro doc scalar short
    obtain ⟨a, coerced⟩ := Scalar.exists_ofDocument scalar
    have equals := Document.equals_text short coerced
    exact ⟨a.text, read (targetOf_ofDocument short coerced), matchesValues_of_equals scalar equals⟩
  · intro value moment denotes
    obtain ⟨target, text, coerced⟩ := denotes.exists_target
    exact ⟨target, read text, coerced⟩

/-- An integer, and half past two at an offset of five hours and a half, which is an instant of
the day before. -/
theorem Filter.ofValue_scalar_age_and_night :
    let doc : Document := .number (.int 18)
    let night : Value := .timestamp ⟨⟨63800188200000000, by decide⟩, some 19800000000⟩
    let instant : Moment := ⟨63800168400000000, by decide⟩
    doc.isCollection = false ∧ doc.IsShort ∧ night.Denotes instant ∧
    (∃ target, ofValue (settings "age" "=" (.ofDocument doc)) = .ok (single "age" .equal target) ∧
      (matchesValues false [doc] .equal [target]).outcome = .ok true) ∧
    ∃ target, ofValue (settings "age" "=" night) = .ok (single "age" .equal target) ∧
      Scalar.ofDocument (.string target) = .ok ⟨.date instant, target⟩ := by
  intro doc night instant
  have scalar : doc.isCollection = false := rfl
  have two : (Decimal.digits 18).length ≤ 2 := Decimal.length_digits_le (by decide) (by decide)
  have short : doc.IsShort := Nat.le_trans two (by decide)
  have denotes : night.Denotes instant := .timestamp (by decide) (by decide)
  obtain ⟨target, read, verdicts⟩ := (ofValue_scalar "age").1 scalar short
  obtain ⟨target', read', coerced⟩ := (ofValue_scalar "age").2.1 denotes
  exact ⟨scalar, short, denotes, ⟨target, read _ (List.mem_cons_self ..), (verdicts false).1⟩,
    target', read' _ (List.mem_cons_self ..), coerced⟩

end DocumentFilter
