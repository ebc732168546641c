import DocumentFilter.Proofs.CommandLine.Written
import Mathlib

/-!
# Explaining agrees with filtering and querying

Three commands go over the records of an input in loops of their own. Explaining writes a line for
each record and filter; filtering stops at the first filter that a record does not match; querying
knows nothing of filters. They see the same records and end in the same way, since all three loops
are over the same input and nothing that is done for a record can fail, but for the writing. What
they say about a record agrees since all of it comes from what the query of a filter leads to there.

The writing fails at half of a pair, and this is where they differ: explaining shows what a query
leads to, filtering shows the records that match. One can show a half that the other does not.

* `DocumentFilter.CommandLine.accepts_eq_all`: a record is kept if it is explained as a match
  throughout;
* `DocumentFilter.CommandLine.legible_explanation`: the line that explains is read as what it says;
* `DocumentFilter.CommandLine.execute_explain`: **the three commands agree** on every input.
-/

namespace DocumentFilter.CommandLine

/-- A document matches all filters if explaining each of them finds a match. -/
theorem accepts_eq_all {filters : List Filter}
    (wellFormed : ∀ filter ∈ filters, filter.WellFormed) (doc : Document) :
    accepts filters doc = filters.all fun filter => (outcomeOn doc filter).verdict.matched := by
  rw [Bool.eq_iff_iff, accepts_iff_matchesOn, List.all_eq_true]
  refine forall₂_congr fun filter mem => ?_
  obtain ⟨path, parsed⟩ := wellFormed filter mem
  rw [matchesOn_iff parsed, outcomeOn_eq parsed]

/-- The values that are shown are legible. -/
theorem legible_values {doc : Document} (legible : doc.Legible) {filter : Filter}
    (wellFormed : filter.WellFormed) : (Document.array (outcomeOn doc filter).values).Legible := by
  obtain ⟨path, parsed⟩ := wellFormed
  rw [outcomeOn_eq parsed]
  exact legible.resolve path

/-- **An explanation is legible**, as long as its number is: what it shows are texts and parts of
the document. -/
theorem legible_explanation {doc : Document} (legible : doc.Legible) {filter : Filter}
    (wellFormed : filter.WellFormed) {number : Nat} (fits : Json.Fits (.int number)) :
    (explanation number doc filter).Legible := by
  have values := legible_values legible wellFormed
  obtain ⟨path, parsed⟩ := wellFormed
  rw [outcomeOn_eq parsed] at values
  rw [explanation, outcomeOn_eq parsed]
  have texts : ∀ {texts : List String}, (Document.array (texts.map .string)).Legible := by
    intro texts
    exact .array (List.forall_mem_map.2 fun text _ => .string text)
  refine .object ?_ ?_
  · simp only [List.map_cons, List.map_nil]
    decide
  simp only [List.forall_mem_cons]
  refine ⟨.number fits, .string _, .string _, texts, values, .bool _, ?_,
    fun _ mem => absurd mem List.not_mem_nil⟩
  exact .array (List.forall_mem_map.2 fun _ _ => .string _)

/-- What an explanation says. -/
theorem field?_explanation {filter : Filter} (wellFormed : filter.WellFormed) (number : Nat)
    (doc : Document) :
    let line := explanation number doc filter
    line.field? "record" = some (.number (.int number)) ∧
      line.field? "query" = some (.string filter.query) ∧
      line.field? "resolved" = some (.array (outcomeOn doc filter).values) ∧
      line.field? "matched" = some (.bool (outcomeOn doc filter).verdict.matched) := by
  obtain ⟨path, parsed⟩ := wellFormed
  simp only [explanation, outcomeOn_eq parsed]
  exact ⟨rfl, rfl, rfl, rfl⟩

section Agreement

variable [StandIns]

/-- The values that querying prints for a document are those that an explanation shows. -/
theorem printed_query {world : World} {words : List String} {filter : Filter} {bytes : List UInt8}
    (wellFormed : filter.WellFormed) (calls : CallsQuery world words filter.query bytes)
    (threshold : Option LogLevel) :
    (execute world threshold words).printed =
      writablePrefix ((feed bytes).documents.map fun doc =>
        (Document.array (outcomeOn doc filter).values).text) := by
  obtain ⟨path, parsed⟩ := wellFormed
  obtain ⟨level, report⟩ := calls.report threshold
  rw [report, (prints_runQuery parsed bytes).printed_ofRun]
  refine congrArg writablePrefix (List.map_congr_left fun doc _ => ?_)
  rw [outcomeOn_eq parsed]

/-- **Explaining, filtering and querying agree.** For filters whose queries can be read, explaining
goes through one line for each record and each filter, record by record, up to the first line of the
input that is not JSON. A line is read as an object with the number of its record, counted from
zero; the values that querying shows for that record; and whether they match. Filtering goes through
the records whose lines all say that they do. What is printed of these lines are those before the
first that cannot be written. If all can be, the two commands end in the same way, with the same
message about a line that is not JSON. If not, they do so exactly if both have a line that cannot
be written. -/
theorem execute_explain {world : World} {words words' : List String} {source source' : FilterSource}
    {filters : List Filter} {text : String} {lines : List (List Char)}
    (explains : CallsExplain world words source (Utf8.encode text))
    (keeps : CallsFilter world words' source' (Utf8.encode text))
    (built : source.filters world.files = .ok filters)
    (built' : source'.filters world.files = .ok filters) (ne : filters ≠ [])
    (wellFormed : ∀ filter ∈ filters, filter.WellFormed)
    (split : Text.SplitsInto text.toList lines) (moderate : Moderate lines)
    (threshold threshold' : Option LogLevel) :
    let explained := execute world threshold words
    let filtered := execute world threshold' words'
    ∃ docs shown kept,
      shown = (docs.zipIdx.flatMap fun (doc, number) =>
        filters.map fun filter => (explanation number doc filter).text) ∧
      kept = (docs.filter fun doc =>
        filters.all fun filter => (outcomeOn doc filter).verdict.matched).map Document.text ∧
      (Records lines docs ∨ ∃ number flaw, StopsAt lines docs number flaw) ∧
      explained.printed = writablePrefix shown ∧ filtered.printed = writablePrefix kept ∧
      (∀ filter ∈ filters, ∀ asking threshold,
        CallsQuery world asking filter.query (Utf8.encode text) →
          (execute world threshold asking).printed = writablePrefix (docs.map fun doc =>
            (Document.array (outcomeOn doc filter).values).text)) ∧
      (∀ number, ∀ doc ∈ docs, ∀ filter ∈ filters,
        let line := explanation number doc filter
        Text.IsLine line.text.toList ∧
        (Json.Fits (.int number) → Json.read line.text = .ok line) ∧
        line.field? "record" = some (.number (.int number)) ∧
        line.field? "query" = some (.string filter.query) ∧
        line.field? "resolved" = some (.array (outcomeOn doc filter).values) ∧
        line.field? "matched" = some (.bool (outcomeOn doc filter).verdict.matched) ∧
        Json.read (Document.array (outcomeOn doc filter).values).text =
          .ok (.array (outcomeOn doc filter).values) ∧
        Json.read doc.text = .ok doc) ∧
      (AllWritable shown → AllWritable kept →
        Records lines docs ∧ explained.ending = .finished ∧ filtered.ending = .finished ∨
          ∃ number flaw message, StopsAt lines docs number flaw ∧
            explained.ending = .stopped (.failed message) ∧
            filtered.ending = .stopped (.failed message) ∧
            explained.messages.getLast? = some ("Error: " ++ message) ∧
            filtered.messages.getLast? = some ("Error: " ++ message)) ∧
      (explained.ending = filtered.ending ↔ (AllWritable shown ↔ AllWritable kept)) := by
  intro explained filtered
  obtain ⟨docs, known⟩ := records_or_stopsAt moderate
  have given := documents_feed split known
  obtain ⟨level, same⟩ := explains.report threshold
  obtain ⟨level', same'⟩ := keeps.report threshold'
  have same : explained = _ := same
  have same' : filtered = _ := same'
  have prints := prints_runExplain wellFormed ne built (Utf8.encode text)
  have prints' := prints_runFilter wellFormed built' (Utf8.encode text)
  -- both loops are over the same records, so the commands differ in their lines only
  rw [given] at prints prints'
  have legible : ∀ doc ∈ docs, doc.Legible := given ▸ legible_of_feed (Utf8.encode text)
  rw [funext (accepts_eq_all wellFormed)] at prints'
  refine ⟨docs, _, _, rfl, rfl, known, ?_, ?_, ?_, ?_, ?_, ?_⟩
  · rw [same, prints.printed_ofRun]
  · rw [same', prints'.printed_ofRun]
  · intro filter mem asking threshold calls
    rw [printed_query (wellFormed filter mem) calls, given]
  · intro number doc given filter mem line
    have formed := wellFormed filter mem
    have read : Json.Fits (.int number) → Json.read line.text = .ok line := fun fits =>
      Json.read_text (legible_explanation (legible doc given) formed fits)
    obtain ⟨record, query, resolved, matched⟩ := field?_explanation formed number doc
    have values := Json.read_text (legible_values (legible doc given) formed)
    exact ⟨line.isLine_text, read, record, query, resolved, matched, values,
      Json.read_text (legible doc given)⟩
  · intro writable writable'
    rw [same, same']
    refine known.imp (fun records => ?_) ?_
    · exact ⟨records, prints.finished level writable split records,
        prints'.finished level' writable' split records⟩
    · rintro ⟨number, flaw, stops⟩
      obtain ⟨ending, message⟩ := prints.stopped level writable split stops
      obtain ⟨ending', message'⟩ := prints'.stopped level' writable' split stops
      exact ⟨number, flaw, _, stops, ending, ending', message, message'⟩
  · -- an input does not end with the defect of a line that cannot be written
    rw [same, same']
    exact prints.ending_eq_iff level level' prints'

end Agreement

/-- A record and a line that is not JSON, for one filter, and the lines that are printed. -/
theorem execute_explain_flaw :
    let text := "\x7b\"a\":1\x7d\nx"
    let lines := ["\x7b\"a\":1\x7d".toList, ['x']]
    let world : World :=
      ⟨fun _ => .error .missing, Utf8.encode text, ⟨none, none⟩, fun _ => [], ⟨0, by decide⟩⟩
    let words := fun command => [command, "-q", "\"a\"", "-o", "=", "-v", "1"]
    let source : FilterSource := ⟨none, some "\"a\"", some "=", ["1"]⟩
    let keep : Filter := ⟨"\"a\"", .equal, ["1"], by decide⟩
    CallsExplain world (words "explain") source (Utf8.encode text) ∧
      CallsFilter world (words "filter") source (Utf8.encode text) ∧
      CallsQuery world ["query", "\"a\""] keep.query (Utf8.encode text) ∧
      source.filters world.files = .ok [keep] ∧ keep.WellFormed ∧
      Text.SplitsInto text.toList lines ∧ Moderate lines ∧
      (execute world none (words "explain")).printed =
        ["\x7b\"record\": 0, \"query\": \"\\\"a\\\"\", \"operation\": \"=\", " ++
          "\"values\": [\"1\"], \"resolved\": [1], \"matched\": true, \"unsupported\": []\x7d"] ∧
      (execute world none (words "filter")).printed = ["\x7b\"a\": 1\x7d"] ∧
      (execute world none ["query", "\"a\""]).printed = ["[1]"] := by
  intro text lines world words source keep
  have explains : CallsExplain world (words "explain") source (Utf8.encode text) :=
    ⟨_, "-", rfl, rfl, rfl, rfl⟩
  have keeps : CallsFilter world (words "filter") source (Utf8.encode text) :=
    ⟨_, "-", rfl, rfl, rfl, rfl⟩
  have asks : CallsQuery world ["query", "\"a\""] keep.query (Utf8.encode text) :=
    ⟨_, "-", rfl, rfl, rfl, rfl⟩
  have built : source.filters world.files = .ok [keep] := rfl
  have read : Query.parse keep.query = .ok ⟨"\"a\"", [.key "a"]⟩ :=
    Query.parse_eq_ok_iff.2 ⟨⟨⟨[.plain 'a' (by decide)], by decide⟩, []⟩, rfl, by decide, rfl⟩
  have wellFormed : ∀ filter ∈ [keep], filter.WellFormed := List.forall_mem_singleton.2 ⟨_, read⟩
  have split : Text.SplitsInto text.toList lines := Text.splitsInto_iff.2 (by cbv)
  have moderate : Moderate lines := by
    have few : ∀ line ∈ lines, line.length ≤ Json.integerDigits := by decide
    exact moderate_of_short fun line mem long => Nat.not_lt.2 (few line mem) long.lt_length
  let doc : Document := .object [("a", .number (.int 1))]
  obtain ⟨docs, shown, kept, rfl, rfl, known, printed, printed', queried, -⟩ :=
    execute_explain explains keeps built built (List.cons_ne_nil _ _) wellFormed split moderate
      none none
  obtain rfl : docs = [doc] := by
    rw [← documents_feed split known]
    cbv
  have outcome : outcomeOn doc keep =
      ⟨keep, [.number (.int 1)], Operation.equal.verdict [.number (.int 1)] ["1"]⟩ :=
    outcomeOn_eq read doc
  have line : explanation 0 doc keep = .object [("record", .number (.int 0)),
      ("query", .string "\"a\""), ("operation", .string "="), ("values", .array [.string "1"]),
      ("resolved", .array [.number (.int 1)]), ("matched", .bool true),
      ("unsupported", .array [])] := by
    rw [explanation, outcome]
    rfl
  refine ⟨explains, keeps, asks, built, ⟨_, read⟩, split, moderate, ?_, ?_, ?_⟩
  · rw [printed]
    show writablePrefix [(explanation 0 doc keep).text] = _
    rw [line]
    decide +kernel
  · have matched : (outcomeOn doc keep).verdict.matched = true := outcome ▸ rfl
    have all : [doc].filter (fun doc =>
        [keep].all fun filter => (outcomeOn doc filter).verdict.matched) = [doc] := by
      rw [List.filter_singleton, List.all_cons, matched]
      rfl
    rw [printed', all]
    decide +kernel
  · rw [queried keep (List.mem_singleton_self _) _ none asks]
    show writablePrefix [(Document.array (outcomeOn doc keep).values).text] = _
    rw [outcome]
    decide +kernel

/-- **Half of a pair that explaining shows and filtering does not**: the one ends with a defect and
prints nothing, and the other finishes. -/
theorem execute_explain_half :
    let text := "\x7b\"a\":\"\\ud800\"\x7d"
    let world : World :=
      ⟨fun _ => .error .missing, Utf8.encode text, ⟨none, none⟩, fun _ => [], ⟨0, by decide⟩⟩
    let words := fun command => [command, "-q", "\"a\"", "-o", "=", "-v", "x"]
    let source : FilterSource := ⟨none, some "\"a\"", some "=", ["x"]⟩
    let keep : Filter := ⟨"\"a\"", .equal, ["x"], by decide⟩
    let explained := execute world none (words "explain")
    CallsExplain world (words "explain") source (Utf8.encode text) ∧
      CallsFilter world (words "filter") source (Utf8.encode text) ∧
      source.filters world.files = .ok [keep] ∧ keep.WellFormed ∧
      explained.printed = [] ∧ explained.ending = .stopped (.defect .unwritable) ∧
      (execute world none (words "filter")).ending = .finished := by
  intro text world words source keep explained
  let half : Document := .string (String.ofList [StandIns.char 0xD800])
  let doc : Document := .object [("a", half)]
  have explains : CallsExplain world (words "explain") source (Utf8.encode text) :=
    ⟨_, "-", rfl, rfl, rfl, rfl⟩
  have keeps : CallsFilter world (words "filter") source (Utf8.encode text) :=
    ⟨_, "-", rfl, rfl, rfl, rfl⟩
  have built : source.filters world.files = .ok [keep] := rfl
  have read : Query.parse keep.query = .ok ⟨"\"a\"", [.key "a"]⟩ :=
    Query.parse_eq_ok_iff.2 ⟨⟨⟨[.plain 'a' (by decide)], by decide⟩, []⟩, rfl, by decide, rfl⟩
  have wellFormed : ∀ filter ∈ [keep], filter.WellFormed := List.forall_mem_singleton.2 ⟨_, read⟩
  have docs : feed (Utf8.encode "\x7b\"a\":\"\\ud800\"\x7d") = ⟨[doc], none⟩ := by cbv
  have docs : feed (Utf8.encode text) = ⟨[doc], none⟩ := docs
  have outcome : outcomeOn doc keep = ⟨keep, [half], Operation.equal.verdict [half] ["x"]⟩ :=
    outcomeOn_eq read doc
  have line : explanation 0 doc keep = .object [("record", .number (.int 0)),
      ("query", .string "\"a\""), ("operation", .string "="), ("values", .array [.string "x"]),
      ("resolved", .array [half]), ("matched", .bool false), ("unsupported", .array [])] := by
    rw [explanation, outcome]
    rfl
  obtain ⟨level, same⟩ := explains.report none
  have same : explained = _ := same
  obtain ⟨level', same'⟩ := keeps.report none
  have prints := prints_runExplain wellFormed (List.cons_ne_nil _ _) built (Utf8.encode text)
  have prints' := prints_runFilter wellFormed built (Utf8.encode text)
  rw [docs] at prints prints'
  have rejects : ¬accepts [keep] doc = true := by
    rw [accepts_eq_all wellFormed, List.all_cons, outcome]
    exact Bool.false_ne_true
  rw [List.filter_cons_of_neg rejects] at prints'
  have first : writablePrefix [(explanation 0 doc keep).text] = [] := by
    rw [line]
    decide +kernel
  have unwritable : ¬AllWritable [(explanation 0 doc keep).text] := fun writable =>
    List.cons_ne_nil _ _ ((writablePrefix_eq_self writable).symm.trans first)
  refine ⟨explains, keeps, built, ⟨_, read⟩, ?_, ?_, ?_⟩
  · rw [same, prints.printed_ofRun]
    exact first
  · rw [same]
    exact prints.unwritable level unwritable
  · rw [same']
    exact prints'.ending_ofRun level' (List.forall_mem_nil _)

end DocumentFilter.CommandLine
