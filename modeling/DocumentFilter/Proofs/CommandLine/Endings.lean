import DocumentFilter.Proofs.CommandLine.Runs

/-!
# How commands end

Three commands read an input: those that filter it, that explain filters on it and that ask for the
values of a query. Once their filters or their query can be read, nothing that they do for a record
can fail but the writing, and all of them end as their input does if all can be written.

An input ends in one of four ways (`DocumentFilter.CommandLine.InputEnd`). Two of them are meant to
be: all lines are read, or one is not JSON and is reported with its number. The other two are not
foreseen. An integer of too many digits is no flaw of the syntax, and bytes that are not UTF-8 are
found before there is a line to report; both end the command with a defect and without a message.
So does, before any of these, a line that the command shows for a record and that holds half of a
pair, which makes five ways (`DocumentFilter.CommandLine.CommandEnd`). Which records a command reads
before the input ends depends on the blocks that it is read in; they are those of a file.

* `DocumentFilter.CommandLine.InputText`: the lines that are read of an input, whatever its bytes;
* `DocumentFilter.CommandLine.InputEnd`: the four ways in which lines end;
* `DocumentFilter.CommandLine.CommandEnd`: the five ways in which a command ends;
* `DocumentFilter.CommandLine.execute_ending`: **how a command ends**, and what it says then.
-/

namespace DocumentFilter.CommandLine

/-! ### The lines of an input -/

/-- **What is read of an input**: if its bytes are those of a text, all lines of it. Else, the lines
that are complete in what comes before the block at which the bytes break off. -/
inductive InputText : List UInt8 → List (List Char) → Bool → Prop
  | whole {text : String} {lines : List (List Char)} (split : Text.SplitsInto text.toList lines) :
      InputText (Utf8.encode text) lines true
  | part {bytes : List UInt8} {cs : List Char} {lines : List (List Char)}
      (breaks : Utf8.Breaks blockSize .between bytes cs) (begins : Text.BeginsWith cs lines) :
      InputText bytes lines false

variable {bytes : List UInt8} {lines : List (List Char)} {whole : Bool}

theorem inputText_iff : InputText bytes lines whole ↔ inputLines bytes = (lines, whole) := by
  have size : blockSize ≠ 0 := by decide
  constructor
  · rintro (split | ⟨breaks, begins⟩)
    · rw [inputLines, Utf8.decodeBlocks_encode size]
      exact Prod.ext (Text.splitsInto_iff.1 split) rfl
    · rw [inputLines, (Utf8.decodeBlocks_eq_false_iff size).2 breaks]
      exact Prod.ext (Text.beginsWith_iff.1 begins) rfl
  · intro read
    rw [inputLines] at read
    split at read
    · rename_i cs decoded
      cases read
      have run := Utf8.decodeBlocks_eq_true_iff.1 decoded
      rw [Utf8.flatten_blocks size] at run
      rw [Utf8.eq_encode_of_run run]
      exact .whole (Text.splitsInto_iff.2 (by rw [String.toList_ofList]))
    · rename_i cs decoded
      cases read
      exact .part ((Utf8.decodeBlocks_eq_false_iff size).1 decoded) (Text.beginsWith_iff.2 rfl)

section Ends

variable [StandIns]

/-! ### The end of an input -/

/-- **How a command ends** that reads lines, which may be all of its input or not. -/
inductive InputEnd (lines : List (List Char)) (whole : Bool) : Ending → Prop
  | finished {docs : List Document} (records : Records lines docs) (all : whole = true) :
      InputEnd lines whole .finished
  | flaw {docs : List Document} {number : Nat} {flaw : Json.Flaw}
      (stops : StopsAt lines docs number flaw) :
      InputEnd lines whole (.stopped (.failed
        ("Invalid JSON on line " ++ Decimal.natString number ++ ": " ++ flaw.message)))
  | oversized {docs : List Document} {number digits : Nat}
      (fails : FailsAt lines docs number (.oversized digits)) :
      InputEnd lines whole (.stopped (.defect .value))
  | notUtf8 {docs : List Document} (records : Records lines docs) (part : whole = false) :
      InputEnd lines whole (.stopped (.defect .encoding))

/-- **Lines end in one way**, and in one of these. -/
theorem inputEnd_iff {ending : Ending} :
    InputEnd lines whole ending ↔ endingOf (feedFrom whole 1 lines).outcome = ending := by
  have only : ∀ {ending}, InputEnd lines whole ending →
      endingOf (feedFrom whole 1 lines).outcome = ending := by
    rintro _ (⟨records, rfl⟩ | stops | fails | ⟨records, rfl⟩)
    · rw [feedFrom_of_records records]
      rfl
    · obtain ⟨left, fails⟩ := stopsAt_iff.1 stops
      rw [feedFrom_of_failsAt fails]
      rfl
    · rw [feedFrom_of_failsAt fails]
      rfl
    · rw [feedFrom_of_records records]
      rfl
  have one : ∃ ending, InputEnd lines whole ending := by
    obtain ⟨docs, records | ⟨number, stop, fails⟩⟩ := records_or_failsAt lines
    · cases whole with
      | true => exact ⟨_, .finished records rfl⟩
      | false => exact ⟨_, .notUtf8 records rfl⟩
    · cases stop with
      | flaw flaw left => exact ⟨_, .flaw (stopsAt_iff.2 ⟨left, fails⟩)⟩
      | oversized digits => exact ⟨_, .oversized fails⟩
  refine ⟨only, ?_⟩
  rintro rfl
  obtain ⟨ending, ends⟩ := one
  rwa [only ends]

/-- **The records that are read of lines**: of all of them, or of those before the first that is
not read. -/
def ReadRecords (lines : List (List Char)) (docs : List Document) : Prop :=
  Records lines docs ∨ ∃ number stop, FailsAt lines docs number stop

theorem readRecords_iff {docs : List Document} :
    ReadRecords lines docs ↔ (feedFrom whole 1 lines).documents = docs := by
  have only : ∀ {docs}, ReadRecords lines docs → (feedFrom whole 1 lines).documents = docs := by
    rintro docs (records | ⟨number, stop, fails⟩)
    · rw [feedFrom_of_records records]
    · rw [feedFrom_of_failsAt fails]
  refine ⟨only, ?_⟩
  rintro rfl
  obtain ⟨docs, known⟩ := records_or_failsAt lines
  rwa [only known]

/-! ### The end of a command -/

/-- **How a command ends** that shows lines for the records which it reads: as its input does, if
all of them can be written, or with a defect. -/
inductive CommandEnd (lines : List (List Char)) (whole : Bool)
    (shows : List Document → List String) : Ending → Prop
  | input {docs : List Document} {ending : Ending} (read : ReadRecords lines docs)
      (writable : AllWritable (shows docs)) (ends : InputEnd lines whole ending) :
      CommandEnd lines whole shows ending
  | unwritable {docs : List Document} (read : ReadRecords lines docs)
      (unwritable : ¬AllWritable (shows docs)) :
      CommandEnd lines whole shows (.stopped (.defect .unwritable))

variable {shows : List Document → List String}

theorem commandEnd_iff {ending : Ending} :
    CommandEnd lines whole shows ending ↔
      endingOf (if AllWritable (shows (feedFrom whole 1 lines).documents) then
        (feedFrom whole 1 lines).outcome else .error (.defect .unwritable)) = ending := by
  constructor
  · rintro (⟨read, writable, ends⟩ | ⟨read, unwritable⟩)
    · rw [readRecords_iff.1 read, if_pos writable, inputEnd_iff.1 ends]
    · rw [readRecords_iff.1 read, if_neg unwritable]
      rfl
  · split
    · rename_i writable
      exact fun ends => .input (readRecords_iff.2 rfl) writable (inputEnd_iff.2 ends)
    · rename_i unwritable
      rintro rfl
      exact .unwritable (readRecords_iff.2 rfl) unwritable

/-! ### Commands -/

/-- **A command line that reads an input** and is told what to do with it: valid filters, at least
one if they are to be explained, or a valid query. What it shows for records are those that match,
the outcome of each filter on each of them, or the values for each of them. -/
inductive ReadsInput (world : World) (words : List String) (bytes : List UInt8) :
    (List Document → List String) → Prop
  | filter {source : FilterSource} {filters : List Filter}
      (calls : CallsFilter world words source bytes)
      (built : source.filters world.files = .ok filters)
      (wellFormed : ∀ filter ∈ filters, filter.WellFormed) :
      ReadsInput world words bytes fun docs => (docs.filter (accepts filters)).map Document.text
  | explain {source : FilterSource} {filters : List Filter}
      (calls : CallsExplain world words source bytes)
      (built : source.filters world.files = .ok filters)
      (wellFormed : ∀ filter ∈ filters, filter.WellFormed) (ne : filters ≠ []) :
      ReadsInput world words bytes fun docs => docs.zipIdx.flatMap fun numbered =>
        filters.map fun filter => (explanation numbered.2 numbered.1 filter).text
  | query {text : String} {query : Query} (calls : CallsQuery world words text bytes)
      (parsed : Query.parse text = .ok query) :
      ReadsInput world words bytes fun docs =>
        docs.map fun doc => (Document.array (query.resolve doc)).text

/-- Such a command line starts a run that shows its lines and ends as the input does. -/
theorem ReadsInput.report {world : World} {words : List String}
    (reads : ReadsInput world words bytes shows) (threshold : Option LogLevel) :
    ∃ level run, execute world threshold words = .ofRun level run ∧
      Prints run (shows (feed bytes).documents) (feed bytes).outcome := by
  rcases reads with ⟨calls, built, wellFormed⟩ | ⟨calls, built, wellFormed, ne⟩ | ⟨calls, parsed⟩
  · obtain ⟨level, report⟩ := calls.report threshold
    exact ⟨level, _, report, prints_runFilter wellFormed built bytes⟩
  · obtain ⟨level, report⟩ := calls.report threshold
    exact ⟨level, _, report, prints_runExplain wellFormed ne built bytes⟩
  · obtain ⟨level, report⟩ := calls.report threshold
    exact ⟨level, _, report, prints_runQuery parsed bytes⟩

/-- A command that reads an input ends as its lines do, or at a line that it shows. -/
theorem ReadsInput.ending_iff {world : World} {words : List String}
    (reads : ReadsInput world words bytes shows) (threshold : Option LogLevel)
    (text : InputText bytes lines whole) {ending : Ending} :
    (execute world threshold words).ending = ending ↔ CommandEnd lines whole shows ending := by
  obtain ⟨level, run, report, prints⟩ := reads.report threshold
  have source : feed bytes = feedFrom whole 1 lines := by rw [feed, inputText_iff.1 text]
  rw [commandEnd_iff, report, Report.ofRun, prints.outcome, source]

/-- Explaining no filters is refused, whatever the input. -/
theorem execute_explain_nil {world : World} {words : List String} {source : FilterSource}
    (calls : CallsExplain world words source bytes) (built : source.filters world.files = .ok [])
    (threshold : Option LogLevel) :
    (execute world threshold words).ending = .stopped (.failed "no filters given") ∧
      (execute world threshold words).messages = ["Error: no filters given"] := by
  obtain ⟨level, report⟩ := calls.report threshold
  have first : (Traced.lift (source.filters world.files) : Run _).outcome = .ok [] := built
  rw [report, runExplain, Traced.bind_of_ok first]
  exact ⟨rfl, rfl⟩

/-- **How a command ends that reads an input.** It reads all lines and finishes, or it stops at the
first line that is not JSON and says so in its last message. But an integer of too many digits on a
line before that ends it with a defect, and so do bytes that are not UTF-8, once the lines before
them are read; and so does the first line that it shows for a record and that cannot be written. It
prints what it shows up to there. -/
theorem execute_ending {world : World} {words : List String}
    (reads : ReadsInput world words bytes shows) (threshold : Option LogLevel) :
    let report := execute world threshold words
    ∃ lines whole docs, InputText bytes lines whole ∧ ReadRecords lines docs ∧
      report.printed = writablePrefix (shows docs) ∧
      (∀ ending, report.ending = ending ↔ CommandEnd lines whole shows ending) ∧
      (report.ending.status = 0 ↔ report.ending = .finished) ∧
      ∀ message, report.ending = .stopped (.failed message) →
        report.messages.getLast? = some ("Error: " ++ message) := by
  intro report
  have text : InputText bytes (inputLines bytes).1 (inputLines bytes).2 := inputText_iff.2 rfl
  obtain ⟨level, run, same, prints⟩ := reads.report threshold
  have same : report = .ofRun level run := same
  refine ⟨_, _, (feed bytes).documents, text, readRecords_iff.2 rfl, ?_,
    fun ending => reads.ending_iff threshold text, ?_, ?_⟩
  · rw [same, prints.printed_ofRun]
  · have ends := (reads.ending_iff threshold text).1 (rfl : report.ending = report.ending)
    generalize report.ending = ending at ends
    cases ends with
    | input _ _ ends => cases ends <;> simp [Ending.status]
    | unwritable _ _ => simp [Ending.status]
  · intro message ends
    rw [same] at ends ⊢
    have ends : endingOf run.outcome = .stopped (.failed message) := ends
    rw [Report.ofRun, ends]
    exact List.getLast?_concat

end Ends

/-- A record and a line that is not JSON, without a filter. -/
theorem execute_ending_filter :
    let world : World := ⟨fun _ => .error .missing, Utf8.encode "1\nx", ⟨none, none⟩, fun _ => [],
      ⟨0, by decide⟩⟩
    let report := execute world none ["filter"]
    let shows := fun docs : List Document => (docs.filter (accepts [])).map Document.text
    ReadsInput world ["filter"] (Utf8.encode "1\nx") shows ∧
      ∃ lines whole, InputText (Utf8.encode "1\nx") lines whole ∧
        ∀ ending, report.ending = ending ↔ CommandEnd lines whole shows ending := by
  intro world report shows
  have calls : CallsFilter world ["filter"] ⟨none, none, none, []⟩ (Utf8.encode "1\nx") :=
    ⟨_, "-", rfl, rfl, rfl, rfl⟩
  have reads : ReadsInput world ["filter"] (Utf8.encode "1\nx") shows :=
    .filter calls rfl (List.forall_mem_nil _)
  obtain ⟨lines, whole, docs, text, -, -, ending, -⟩ := execute_ending reads none
  exact ⟨reads, lines, whole, text, ending⟩

/-- **Each of the three commands ends with a defect** on a byte that is not UTF-8. -/
theorem execute_ending_notUtf8 :
    let world : World := ⟨fun _ => .error .missing, [0xFF], ⟨none, none⟩, fun _ => [],
      ⟨0, by decide⟩⟩
    let words := fun command => [command, "-q", "\"a\"", "-o", "=", "-v", "1"]
    ∀ command ∈ [words "filter", words "explain", ["query", "\"a\""]],
      (∃ shows, ReadsInput world command [0xFF] shows) ∧
        (execute world none command).ending = .stopped (.defect .encoding) := by
  intro world words
  have read : Query.parse "\"a\"" = .ok ⟨"\"a\"", [.key "a"]⟩ :=
    Query.parse_eq_ok_iff.2 ⟨⟨⟨[.plain 'a' (by decide)], by decide⟩, []⟩, rfl, by decide, rfl⟩
  let keep : Filter := ⟨"\"a\"", .equal, ["1"], by decide⟩
  let source : FilterSource := ⟨none, some "\"a\"", some "=", ["1"]⟩
  have built : source.filters world.files = .ok [keep] := rfl
  have wellFormed : ∀ filter ∈ [keep], filter.WellFormed := List.forall_mem_singleton.2 ⟨_, read⟩
  have text : InputText [0xFF] [] false :=
    .part ⟨0, .between, rfl, .inl rfl⟩ (.part Text.isLine_nil)
  have ends : ∀ {command shows}, ReadsInput world command [0xFF] shows → shows [] = [] →
      (∃ shows, ReadsInput world command [0xFF] shows) ∧
        (execute world none command).ending = .stopped (.defect .encoding) := by
    intro command shows reads nothing
    have writable : AllWritable (shows []) := nothing ▸ List.forall_mem_nil _
    exact ⟨⟨shows, reads⟩,
      (reads.ending_iff none text).2 (.input (.inl .nil) writable (.notUtf8 .nil rfl))⟩
  have filters : ReadsInput world (words "filter") [0xFF] _ :=
    .filter ⟨_, "-", rfl, rfl, rfl, rfl⟩ built wellFormed
  have explains : ReadsInput world (words "explain") [0xFF] _ :=
    .explain ⟨_, "-", rfl, rfl, rfl, rfl⟩ built wellFormed (List.cons_ne_nil _ _)
  have asks : ReadsInput world ["query", "\"a\""] [0xFF] _ :=
    .query ⟨_, "-", rfl, rfl, rfl, rfl⟩ read
  simpa using ⟨ends filters rfl, ends explains rfl, ends asks rfl⟩

end DocumentFilter.CommandLine
