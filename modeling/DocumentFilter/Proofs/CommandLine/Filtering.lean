import DocumentFilter.Proofs.CommandLine.Runs
import DocumentFilter.Proofs.Config.Reading
import Mathlib

/-!
# Filtering an input

What the command that filters prints, for every command line that starts it. A malformed query is
found before the input is looked at. Every other run goes over the records of the input and prints
those that match, so what it prints is the input of another run, which reads back the very records
that were printed. Filtering once more is therefore one more condition on them, and two passes are
one pass with the filters of both.

Since a list of filters with a malformed query matches nothing, what is printed can be said in one
way for all lists (`DocumentFilter.CommandLine.printed_filter`). This is why two passes agree with
one even where a query is malformed, although they end differently.

A record that cannot be written stops the run that is to print it, and here the two ways part. The
first of two passes stops at a record that only its own filters keep, and the second one never sees
what comes behind it. One pass with all filters does not stop there.

* `DocumentFilter.CommandLine.execute_filter`: **what is printed** and how the command ends;
* `DocumentFilter.CommandLine.stdout_filter_stdout`: **two passes are one** where all records can be
  written, and else exactly if nothing is lost; a second pass with the same filter changes nothing.
-/

namespace DocumentFilter

namespace CommandLine

/-! ### One pass -/

section OnePass

variable [StandIns]
  {world : World} {words : List String} {source : FilterSource} {bytes : List UInt8}
  {filters : List Filter} (calls : CallsFilter world words source bytes)
  (built : source.filters world.files = .ok filters) (threshold : Option LogLevel)
include calls built

/-- A malformed query is all that a command line reports. -/
theorem report_of_malformed (malformed : ¬∀ filter ∈ filters, filter.WellFormed) :
    ∃ error, FirstMalformed filters error ∧
      ∃ level, execute world threshold words =
        .ofRun level (Traced.fail (.failed error.message)) := by
  rcases wellFormed_or_first_malformed filters with
    all | ⟨before, filter, after, error, split, earlier, parsed⟩
  · exact absurd all malformed
  · have first : FirstMalformed filters error := ⟨before, filter, after, split, earlier, parsed⟩
    obtain ⟨level, report⟩ := calls.report threshold
    rw [runFilter_of_malformed built first] at report
    exact ⟨error, first, level, report⟩

/-- **What filtering prints**: the records that match, up to the first that cannot be written; and
nothing if a query is malformed, for then no record matches. -/
theorem printed_filter :
    (execute world threshold words).printed =
      writablePrefix (((feed bytes).documents.filter (accepts filters)).map Document.text) := by
  by_cases wellFormed : ∀ filter ∈ filters, filter.WellFormed
  · obtain ⟨level, report⟩ := calls.report threshold
    rw [report, (prints_runFilter wellFormed built bytes).printed_ofRun]
  · obtain ⟨error, -, level, report⟩ := report_of_malformed calls built threshold wellFormed
    have rejects : ∀ doc ∈ (feed bytes).documents, ¬accepts filters doc = true := by
      intro doc _ accepted
      exact wellFormed fun filter mem => (accepts_iff_matchesOn.1 accepted filter mem).wellFormed
    rw [report, List.filter_eq_nil_iff.2 rejects]
    rfl

end OnePass

section Input

variable [StandIns]

/-- **Filtering an input.** If a query is malformed, the first such query is reported and nothing
is printed, whatever the input. Else the input is split into lines, and what is to be printed is,
one a line and in order, the text of each record that matches, up to the first line that is not
JSON; each of these texts is read as its record again. If all of them can be written, they are what
is printed: without a line that is not JSON the exit status is 0, and with one it is 1 and the last
message tells its number among all lines. But a record that matches and holds half of a pair ends
the command with a defect, once the records before it are printed. -/
theorem execute_filter {world : World} {words : List String} {source : FilterSource}
    {bytes : List UInt8} {filters : List Filter} (calls : CallsFilter world words source bytes)
    (built : source.filters world.files = .ok filters) (threshold : Option LogLevel) :
    let report := execute world threshold words
    ((∃ filter ∈ filters, ¬filter.WellFormed) →
      report.printed = [] ∧ report.ending.status = 1 ∧
        ∃ error, FirstMalformed filters error ∧ report.messages = ["Error: " ++ error.message]) ∧
    ((∀ filter ∈ filters, filter.WellFormed) →
      ∀ text lines, bytes = Utf8.encode text → Text.SplitsInto text.toList lines →
        Moderate lines →
          ∃ docs kept, kept = (docs.filter (accepts filters)).map Document.text ∧
            (Records lines docs ∨ ∃ number flaw, StopsAt lines docs number flaw) ∧
            (∀ doc ∈ docs, Text.IsLine doc.text.toList ∧ Json.read doc.text = .ok doc) ∧
            report.printed = writablePrefix kept ∧
            (AllWritable kept → report.printed = kept ∧
              (Records lines docs ∧ report.ending.status = 0 ∨
                ∃ number flaw, StopsAt lines docs number flaw ∧ report.ending.status = 1 ∧
                  report.messages.getLast? = some ("Error: " ++ ("Invalid JSON on line " ++
                    Decimal.natString number ++ ": " ++ flaw.message)))) ∧
            (¬AllWritable kept → report.ending = .stopped (.defect .unwritable))) := by
  intro report
  constructor
  · rintro ⟨filter, mem, unread⟩
    obtain ⟨error, first, level, same⟩ :=
      report_of_malformed calls built threshold fun all => unread (all filter mem)
    have same : report = _ := same
    rw [same]
    exact ⟨rfl, rfl, error, first, rfl⟩
  · rintro wellFormed text lines rfl split moderate
    obtain ⟨level, same⟩ := calls.report threshold
    have same : report = _ := same
    have prints := prints_runFilter wellFormed built (Utf8.encode text)
    obtain ⟨docs, known⟩ := records_or_stopsAt moderate
    have given := documents_feed split known
    rw [given] at prints
    -- only what was read is printed, and what was read can be read again
    have legible : ∀ doc ∈ docs, doc.Legible := given ▸ legible_of_feed (Utf8.encode text)
    have printed : report.printed = _ := same ▸ prints.printed_ofRun level
    refine ⟨docs, _, rfl, known,
      fun doc mem => ⟨doc.isLine_text, Json.read_text (legible doc mem)⟩, printed,
      fun writable => ?_, fun unwritable => same ▸ prints.unwritable level unwritable⟩
    · rw [printed, writablePrefix_eq_self writable, same]
      refine ⟨rfl, known.imp ?_ ?_⟩
      · intro records
        rw [prints.finished level writable split records]
        exact ⟨records, rfl⟩
      · rintro ⟨number, flaw, stops⟩
        obtain ⟨ending, message⟩ := prints.stopped level writable split stops
        rw [ending, message]
        exact ⟨number, flaw, stops, rfl, rfl⟩

end Input

/-- A record, a blank line and a line that is not JSON, for a filter whose query can be read and for
one whose query cannot. -/
theorem execute_filter_flaw :
    let text := "\x7b\"a\":1\x7d\r\n \rx"
    let lines := ["\x7b\"a\":1\x7d".toList, [' '], ['x']]
    let world : World :=
      ⟨fun _ => .error .missing, Utf8.encode text, ⟨none, none⟩, fun _ => [], ⟨0, by decide⟩⟩
    let words := fun query => ["filter", "-q", query, "-o", "=", "-v", "1"]
    let source := fun query : String => (⟨none, some query, some "=", ["1"]⟩ : FilterSource)
    let keep := fun query => (⟨query, .equal, ["1"], by decide⟩ : Filter)
    (∀ query ∈ ["\"a\"", ""], CallsFilter world (words query) (source query) (Utf8.encode text) ∧
      (source query).filters world.files = .ok [keep query]) ∧
    (keep "\"a\"").WellFormed ∧ ¬(keep "").WellFormed ∧ Text.SplitsInto text.toList lines ∧
    Moderate lines ∧
    (execute world none (words "")).printed = [] ∧
    (execute world none (words "\"a\"")).printed = ["\x7b\"a\": 1\x7d"] := by
  intro text lines world words source keep
  have calls : ∀ query ∈ ["\"a\"", ""],
      CallsFilter world (words query) (source query) (Utf8.encode text) ∧
        (source query).filters world.files = .ok [keep query] := by
    intro query mem
    simp only [List.mem_cons, List.not_mem_nil, or_false] at mem
    rcases mem with rfl | rfl
    · exact ⟨⟨_, "-", rfl, rfl, rfl, rfl⟩, rfl⟩
    · exact ⟨⟨_, "-", rfl, rfl, rfl, rfl⟩, rfl⟩
  have parsed : Query.parse "\"a\"" = .ok ⟨"\"a\"", [.key "a"]⟩ :=
    Query.parse_eq_ok_iff.2 ⟨⟨⟨[.plain 'a' (by decide)], by decide⟩, []⟩, rfl, by decide, rfl⟩
  have malformed : ¬(keep "").WellFormed := by
    rintro ⟨path, parsed⟩
    cases parsed
  have wellFormed : ∀ filter ∈ [keep "\"a\""], filter.WellFormed :=
    List.forall_mem_singleton.2 ⟨_, parsed⟩
  have split : Text.SplitsInto text.toList lines := Text.splitsInto_iff.2 (by cbv)
  have moderate : Moderate lines := by
    have few : ∀ line ∈ lines, line.length ≤ Json.integerDigits := by decide
    exact moderate_of_short fun line mem long => Nat.not_lt.2 (few line mem) long.lt_length
  let doc : Document := .object [("a", .number (.int 1))]
  have accepted : accepts [keep "\"a\""] doc = true :=
    accepts_iff_matchesOn.2 (List.forall_mem_singleton.2 ((matchesOn_iff parsed).2 rfl))
  obtain ⟨reads, built⟩ := calls "\"a\"" (by decide)
  obtain ⟨reads', built'⟩ := calls "" (by decide)
  have refused :=
    (execute_filter reads' built' none).1 ⟨keep "", List.mem_singleton_self _, malformed⟩
  obtain ⟨docs, kept, shown, known, -, -, printed, -⟩ :=
    (execute_filter reads built none).2 wellFormed text lines rfl split moderate
  obtain rfl : docs = [doc] := by
    rw [← documents_feed split known]
    cbv
  have line : kept = ["\x7b\"a\": 1\x7d"] := by
    rw [shown, List.filter_cons_of_pos accepted]
    cbv
  have writable : AllWritable ["\x7b\"a\": 1\x7d"] := List.forall_mem_singleton.2 (by cbv)
  exact ⟨calls, wellFormed _ (List.mem_singleton_self _), malformed, split, moderate, refused.1,
    line ▸ (printed (line ▸ writable)).1⟩

/-- **A record that cannot be printed**: it holds one half of a pair, and there is no filter that
it does not match. -/
theorem execute_filter_half :
    let text := "1\n\"\\ud800\"\n2"
    let world : World :=
      ⟨fun _ => .error .missing, Utf8.encode text, ⟨none, none⟩, fun _ => [], ⟨0, by decide⟩⟩
    let report := execute world none ["filter"]
    CallsFilter world ["filter"] ⟨none, none, none, []⟩ (Utf8.encode text) ∧
      report.printed = ["1"] ∧ report.ending = .stopped (.defect .unwritable) := by
  intro text world report
  have calls : CallsFilter world ["filter"] ⟨none, none, none, []⟩ (Utf8.encode text) :=
    ⟨_, "-", rfl, rfl, rfl, rfl⟩
  have prints := prints_runFilter (List.forall_mem_nil _)
    (rfl : FilterSource.filters world.files ⟨none, none, none, []⟩ = .ok []) (Utf8.encode text)
  obtain ⟨level, same⟩ := calls.report none
  have same : report = _ := same
  have docs : (feed (Utf8.encode text)).documents =
      [.number (.int 1), .string (String.ofList [StandIns.char 0xD800]), .number (.int 2)] := by
    cbv
  have all : ∀ docs : List Document, docs.filter (accepts []) = docs := fun docs =>
    List.filter_eq_self.2 fun _ _ => rfl
  rw [docs, all] at prints
  have half : isWritable (Document.text (.string (String.ofList [StandIns.char 0xD800]))) = false :=
    by cbv
  have unwritable : ¬AllWritable (List.map Document.text
      [.number (.int 1), .string (String.ofList [StandIns.char 0xD800]), .number (.int 2)]) :=
    fun writable => Bool.false_ne_true (half.symm.trans (writable _ (.tail _ (.head _))))
  rw [same]
  refine ⟨calls, ?_, prints.unwritable level unwritable⟩
  rw [prints.printed_ofRun]
  cbv

/-! ### Two passes -/

/-- What is left of the first items that pass one test and then another, and what is lost. -/
theorem takeWhile_filter {α : Type} (first keep : α → Bool) (xs : List α) :
    (xs.filter keep).takeWhile first =
      (xs.takeWhile first).filter keep ++ ((xs.dropWhile first).filter keep).takeWhile first := by
  have passes : ∀ x ∈ (xs.takeWhile first).filter keep, first x = true := fun x mem =>
    List.mem_takeWhile_imp (List.mem_of_mem_filter mem)
  conv_lhs => rw [← List.takeWhile_append_dropWhile (p := first) (l := xs)]
  rw [List.filter_append, List.takeWhile_append_of_pos passes]

/-- Nothing is lost if what comes first of the rest does not pass. -/
theorem takeWhile_filter_eq_nil_iff {α : Type} (first keep : α → Bool) (xs : List α) :
    (xs.filter keep).takeWhile first = [] ↔ ∀ x, xs.find? keep = some x → first x = false := by
  rw [← List.head?_filter]
  cases xs.filter keep with
  | nil => simp
  | cons x rest => simp [List.takeWhile_cons]

/-- Only no more lines leave a text as it is. -/
theorem eq_nil_of_printedText_append {lines more : List String}
    (same : printedText (lines ++ more) = printedText lines) : more = [] := by
  have same := congrArg String.toList same
  rw [printedText, printedText, String.toList_ofList, String.toList_ofList, List.flatMap_append,
    List.append_right_eq_self, List.flatMap_eq_nil_iff] at same
  refine List.eq_nil_iff_forall_not_mem.2 fun line mem => ?_
  exact absurd (same line mem) (by simp)

section TwoPasses

variable [StandIns]

/-- The filters of a command are those of the file and then the one that is given by its parts. -/
theorem filters_eq_ok {files : Files} {source : FilterSource} {loaded parts : List Filter}
    (of_file : source.loaded files = .ok loaded) (of_parts : source.inline = .ok parts) :
    source.filters files = .ok (loaded ++ parts) := by
  rw [FilterSource.filters, of_file, of_parts]
  rfl

/-- **Filtering in two passes is filtering once**, if all records that the filters of a file keep
can be written: what is printed with these filters and one more is, to the character, what is
printed with that one alone for what was printed with those of the file. This holds of malformed
queries and of every input, one with a flaw included. If a record that they keep cannot be written,
the two still agree exactly if, from that record on, the first that the other filter keeps as well
cannot be written either. A filter that is run on what it printed prints it again, always. -/
theorem stdout_filter_stdout {world world' : World} {both first second : List String}
    {config query word : String} {values : List String} {bytes : List UInt8}
    {loaded : List Filter} {filter : Filter} (threshold threshold' threshold'' : Option LogLevel)
    (loads : loadFilters world.files config = .ok loaded)
    (given : FilterSource.inline ⟨none, some query, some word, values⟩ = .ok [filter])
    (calls_both : CallsFilter world both ⟨some config, some query, some word, values⟩ bytes)
    (calls_first : CallsFilter world first ⟨some config, none, none, []⟩ bytes)
    (calls_second : CallsFilter world' second ⟨none, some query, some word, values⟩
      (Utf8.encode (execute world threshold' first).stdout)) :
    let once := (execute world threshold both).stdout
    let twice := (execute world' threshold'' second).stdout
    let kept := (feed bytes).documents.filter (accepts loaded)
    ((∀ doc ∈ kept, isPrintable doc = true) → once = twice) ∧
      (once = twice ↔ ∀ doc, (kept.dropWhile isPrintable).find? (accepts [filter]) = some doc →
        isPrintable doc = false) ∧
      (loaded = [filter] → twice = (execute world threshold' first).stdout) := by
  intro once twice kept
  have of_file : (Except.mapError configStop (loadFilters world.files config)) = .ok loaded :=
    congrArg (Except.mapError configStop) loads
  have printed := printed_filter calls_first (filters_eq_ok of_file rfl) threshold'
  have printed_both := printed_filter calls_both (filters_eq_ok of_file given) threshold
  have printed_second := printed_filter calls_second (filters_eq_ok rfl given) threshold''
  rw [List.append_nil, writablePrefix_map_text] at printed
  have legible : ∀ doc ∈ kept.takeWhile isPrintable, doc.Legible := fun doc mem =>
    legible_of_feed bytes doc (List.mem_of_mem_filter ((List.takeWhile_sublist _).mem mem))
  -- the second pass reads the records that the first one printed, all of which can be written
  rw [Report.stdout, printed, feed_printed legible, List.nil_append, writablePrefix_map_text,
    List.takeWhile_eq_self_iff.2 fun doc mem =>
      List.mem_takeWhile_imp (List.mem_of_mem_filter mem)] at printed_second
  have conjunction : accepts (loaded ++ [filter]) =
      fun doc => accepts [filter] doc && accepts loaded doc := by
    funext doc
    rw [accepts_append, Bool.and_comm]
  -- and what is lost comes behind the first of the others
  rw [conjunction, ← List.filter_filter, writablePrefix_map_text, takeWhile_filter,
    List.map_append] at printed_both
  have lost : once = twice ↔ ∀ doc,
      (kept.dropWhile isPrintable).find? (accepts [filter]) = some doc →
        isPrintable doc = false := by
    rw [← takeWhile_filter_eq_nil_iff]
    have same : once = printedText _ := congrArg printedText printed_both
    have same' : twice = printedText _ := congrArg printedText printed_second
    rw [same, same']
    constructor
    · intro equal
      exact List.map_eq_nil_iff.1 (eq_nil_of_printedText_append equal)
    · intro none
      rw [none, List.map_nil, List.append_nil]
  refine ⟨fun printable => lost.2 ?_, lost, ?_⟩
  · rw [List.dropWhile_eq_nil_iff.2 printable]
    exact fun doc found => absurd found (by simp)
  · rintro rfl
    have again : (kept.takeWhile isPrintable).filter (accepts [filter]) =
        kept.takeWhile isPrintable :=
      List.filter_eq_self.2 fun doc mem =>
        List.of_mem_filter ((List.takeWhile_sublist _).mem mem)
    rw [again, ← printed] at printed_second
    exact congrArg printedText printed_second

end TwoPasses

/-- A filter that is both in a file and given by its parts, and an input with a flaw. -/
theorem stdout_filter_stdout_same :
    let config : Document := .array [.object [("query", .string "\"a\""),
      ("operation", .string "="), ("values", .array [.string "1"])]]
    let keep : Filter := ⟨"\"a\"", .equal, ["1"], by decide⟩
    let world : List UInt8 → World := fun input =>
      ⟨fun _ => .ok (Utf8.encode config.text), input, ⟨none, none⟩, fun _ => [], ⟨0, by decide⟩⟩
    let input := Utf8.encode "\x7b\"a\": 1\x7d\nx"
    let both := ["filter", "-c", "f.json", "-q", "\"a\"", "-o", "=", "-v", "1"]
    let first := ["filter", "-c", "f.json"]
    let second := ["filter", "-q", "\"a\"", "-o", "=", "-v", "1"]
    let printed := (execute (world input) none first).stdout
    loadFilters (world input).files "f.json" = .ok [keep] ∧
      (∀ doc ∈ (feed input).documents.filter (accepts [keep]), isPrintable doc = true) ∧
      (execute (world input) none both).stdout =
        (execute (world (Utf8.encode printed)) none second).stdout ∧
      (execute (world (Utf8.encode printed)) none second).stdout = printed := by
  intro config keep world input both first second printed
  have legible : config.Legible := by
    refine .array (List.forall_mem_singleton.2 (.object (by decide) ?_))
    simp only [List.forall_mem_cons]
    exact ⟨.string _, .string _, .array (List.forall_mem_singleton.2 (.string _)), by simp⟩
  have loads : loadFilters (world input).files "f.json" = .ok [keep] := by
    rw [loadFilters, readConfig_text legible (by decide) (by decide) rfl]
    rfl
  have calls_both : CallsFilter (world input) both
      ⟨some "f.json", some "\"a\"", some "=", ["1"]⟩ input := ⟨_, "-", rfl, rfl, rfl, rfl⟩
  have calls_first : CallsFilter (world input) first ⟨some "f.json", none, none, []⟩ input :=
    ⟨_, "-", rfl, rfl, rfl, rfl⟩
  have calls_second : ∀ bytes, CallsFilter (world bytes) second
      ⟨none, some "\"a\"", some "=", ["1"]⟩ bytes := fun _ => ⟨_, "-", rfl, rfl, rfl, rfl⟩
  have given : FilterSource.inline ⟨none, some "\"a\"", some "=", ["1"]⟩ = .ok [keep] := rfl
  have docs : (feed (Utf8.encode "\x7b\"a\": 1\x7d\nx")).documents =
      [.object [("a", .number (.int 1))]] := by cbv
  have one : isPrintable (.object [("a", .number (.int 1))]) = true := by cbv
  have all : ∀ doc ∈ (feed input).documents, isPrintable doc = true :=
    docs ▸ List.forall_mem_singleton.2 one
  have printable : ∀ doc ∈ (feed input).documents.filter (accepts [keep]),
      isPrintable doc = true := fun doc mem => all doc (List.mem_of_mem_filter mem)
  obtain ⟨passes, -, again⟩ := stdout_filter_stdout none none none loads given calls_both
    calls_first (calls_second (Utf8.encode printed))
  exact ⟨loads, printable, passes printable, again rfl⟩

/-- **What a second pass loses**: the first record cannot be written, and without the other filter
it is the first to be printed. -/
theorem stdout_filter_stdout_half :
    let world : List UInt8 → World := fun input =>
      ⟨fun _ => .ok (Utf8.encode "[]"), input, ⟨none, none⟩, fun _ => [], ⟨0, by decide⟩⟩
    let input := Utf8.encode "\"\\ud800\"\n\x7b\"a\": 1\x7d"
    let both := ["filter", "-c", "f.json", "-q", "\"a\"", "-o", "=", "-v", "1"]
    let first := ["filter", "-c", "f.json"]
    let second := ["filter", "-q", "\"a\"", "-o", "=", "-v", "1"]
    let printed := (execute (world input) none first).stdout
    loadFilters (world input).files "f.json" = .ok [] ∧
      CallsFilter (world input) both ⟨some "f.json", some "\"a\"", some "=", ["1"]⟩ input ∧
      CallsFilter (world input) first ⟨some "f.json", none, none, []⟩ input ∧
      CallsFilter (world (Utf8.encode printed)) second ⟨none, some "\"a\"", some "=", ["1"]⟩
        (Utf8.encode printed) ∧
      (execute (world input) none both).stdout = "\x7b\"a\": 1\x7d\n" ∧ printed = "" ∧
      (execute (world (Utf8.encode printed)) none second).stdout = "" := by
  intro world input both first second printed
  let keep : Filter := ⟨"\"a\"", .equal, ["1"], by decide⟩
  let half : Document := .string (String.ofList [StandIns.char 0xD800])
  let one : Document := .object [("a", .number (.int 1))]
  have legible : (Document.array []).Legible := .array (List.forall_mem_nil _)
  have loads : ∀ input, loadFilters (world input).files "f.json" = .ok [] := by
    intro input
    rw [loadFilters, readConfig_text legible (by decide) (by decide) rfl]
    rfl
  have calls_both : CallsFilter (world input) both
      ⟨some "f.json", some "\"a\"", some "=", ["1"]⟩ input := ⟨_, "-", rfl, rfl, rfl, rfl⟩
  have calls_first : CallsFilter (world input) first ⟨some "f.json", none, none, []⟩ input :=
    ⟨_, "-", rfl, rfl, rfl, rfl⟩
  have calls_second : ∀ bytes, CallsFilter (world bytes) second
      ⟨none, some "\"a\"", some "=", ["1"]⟩ bytes := fun _ => ⟨_, "-", rfl, rfl, rfl, rfl⟩
  have given : FilterSource.inline ⟨none, some "\"a\"", some "=", ["1"]⟩ = .ok [keep] := rfl
  have of_file : (Except.mapError configStop (loadFilters (world input).files "f.json")) = .ok [] :=
    congrArg (Except.mapError configStop) (loads input)
  have docs : (feed (Utf8.encode "\"\\ud800\"\n\x7b\"a\": 1\x7d")).documents = [half, one] := by
    cbv
  have parsed : Query.parse "\"a\"" = .ok ⟨"\"a\"", [.key "a"]⟩ :=
    Query.parse_eq_ok_iff.2 ⟨⟨⟨[.plain 'a' (by decide)], by decide⟩, []⟩, rfl, by decide, rfl⟩
  have accepts_iff_verdict : ∀ doc, accepts [keep] doc = true ↔ _ := fun doc =>
    accepts_iff_matchesOn.trans (List.forall_mem_singleton.trans (matchesOn_iff parsed))
  have kept : [half, one].filter (accepts [keep]) = [one] := by
    rw [List.filter_cons_of_neg (mt (accepts_iff_verdict half).1 Bool.false_ne_true),
      List.filter_singleton, (accepts_iff_verdict one).2 rfl]
    rfl
  have once : (execute (world input) none both).stdout = "\x7b\"a\": 1\x7d\n" := by
    rw [Report.stdout, printed_filter calls_both (filters_eq_ok of_file given),
      show (feed input).documents = _ from docs, List.nil_append, kept]
    cbv
  have all : [half, one].filter (accepts ([] ++ [])) = [half, one] :=
    List.filter_eq_self.2 fun _ _ => rfl
  have nothing : printed = "" := by
    rw [show printed = printedText _ from
        congrArg printedText (printed_filter calls_first (filters_eq_ok of_file rfl) none),
      show (feed input).documents = _ from docs, all]
    cbv
  refine ⟨loads input, calls_both, calls_first, calls_second _, once, nothing, ?_⟩
  have empty : (feed (Utf8.encode "")).documents = [] := by cbv
  rw [nothing, Report.stdout, printed_filter (calls_second _) (filters_eq_ok rfl given), empty]
  rfl

end CommandLine

end DocumentFilter
