import DocumentFilter.CommandLine.Report
import DocumentFilter.Proofs.CommandLine.Records
import DocumentFilter.Proofs.Filter.Conjunction

/-!
# What commands print

Of a run, the lines that it prints and the way it ends are followed here; the records of its log
are not (`DocumentFilter.CommandLine.Prints`). A run that is made of two parts prints what the first
one prints and then, if that does not fail, what the second one does. So every command prints the
lines of each record of its input in order, and ends as the input does.

A line that cannot be written ends a run where it is to be printed. This is no different for the
loops and the commands that they are in, so it is said once: a run is told by the lines that it goes
through, the **writable prefix** of which is printed, and by the outcome that it has if that is all
of them.

A command is found by its words. What is needed of them is said once for all commands: they name a
task and nothing besides, and the files that the task names are there
(`DocumentFilter.CommandLine.Calls`).

* `DocumentFilter.CommandLine.prints_forFeed`: a loop over the records of an input;
* `DocumentFilter.CommandLine.prints_runFilter`, `DocumentFilter.CommandLine.prints_runExplain`,
  `DocumentFilter.CommandLine.prints_runQuery`: the three commands that read records;
* `DocumentFilter.CommandLine.Calls.report`: **the report of a command line** is that of its run.
-/

namespace DocumentFilter

namespace CommandLine

/-! ### Records and filters -/

/-- Where the numbers of the documents do not matter, they may be left out. -/
theorem flatMap_zipIdx (lines : Document → List String) (docs : List Document) :
    (docs.zipIdx.flatMap fun numbered => lines numbered.1) = docs.flatMap lines := by
  rw [← List.flatMap_map Prod.fst, List.zipIdx_map_fst]

/-- One line or none for each document is a line for each of those that have one. -/
theorem flatMap_ite (keep : Document → Bool) (docs : List Document) :
    (docs.flatMap fun doc => if keep doc then [doc.text] else []) =
      (docs.filter keep).map Document.text := by
  induction docs with
  | nil => rfl
  | cons doc rest ih =>
    rw [List.flatMap_cons, ih, List.filter_cons]
    split
    · rfl
    · rfl

/-- **Whether a document matches all filters**; it does not if one of them is malformed. -/
def accepts (filters : List Filter) (doc : Document) : Bool :=
  (matchesAll doc filters).outcome.toOption.getD false

theorem accepts_iff {filters : List Filter} {doc : Document} :
    accepts filters doc = true ↔ (matchesAll doc filters).outcome = .ok true := by
  rw [accepts]
  cases (matchesAll doc filters).outcome with
  | ok matched => simp [Except.toOption]
  | error error => simp [Except.toOption]

/-- Documents that match are those on which every filter finds a match. -/
theorem accepts_iff_matchesOn {filters : List Filter} {doc : Document} :
    accepts filters doc = true ↔ ∀ filter ∈ filters, filter.MatchesOn doc := by
  rw [accepts_iff]
  by_cases wellFormed : ∀ filter ∈ filters, filter.WellFormed
  · obtain ⟨matched, verdict, all⟩ := exists_matchesAll doc wellFormed
    rw [verdict, Except.ok.injEq, all]
  · constructor
    · intro verdict
      obtain ⟨filter, mem, unread⟩ : ∃ filter ∈ filters, ¬filter.WellFormed := by
        simpa using wellFormed
      obtain ⟨error, failed⟩ := (matchesAll_fails_iff doc).2 ⟨filter, mem, unread⟩
      rw [failed] at verdict
      cases verdict
    · intro all
      exact absurd (fun filter mem => (all filter mem).wellFormed) wellFormed

theorem accepts_append (filters others : List Filter) (doc : Document) :
    accepts (filters ++ others) doc = (accepts filters doc && accepts others doc) := by
  rw [Bool.eq_iff_iff, Bool.and_eq_true, accepts_iff_matchesOn, accepts_iff_matchesOn,
    accepts_iff_matchesOn, List.forall_mem_append]

/-- How a filter goes on a document, if its query can be read. -/
def outcomeOn (doc : Document) (filter : Filter) : Outcome :=
  (explain doc filter).outcome.toOption.getD ⟨filter, [], .none⟩

theorem outcomeOn_eq {filter : Filter} {path : Query} (parsed : Query.parse filter.query = .ok path)
    (doc : Document) :
    outcomeOn doc filter =
      ⟨filter, path.resolve doc, filter.operation.verdict (path.resolve doc) filter.values⟩ := by
  rw [outcomeOn, outcome_explain parsed]
  rfl

/-- **The line that explains** how a filter goes on the document of the given number. -/
def explanation (number : Nat) (doc : Document) (filter : Filter) : Document :=
  outcomeDocument number (outcomeOn doc filter)

/-! ### Runs -/

variable [StandIns] {α β : Type}

/-- The lines before the first that cannot be written. -/
def writablePrefix (lines : List String) : List String :=
  lines.takeWhile isWritable

/-- Lines that can all be written. -/
def AllWritable (lines : List String) : Prop :=
  ∀ line ∈ lines, isWritable line = true

instance (lines : List String) : Decidable (AllWritable lines) :=
  inferInstanceAs (Decidable (∀ line ∈ lines, isWritable line = true))

/-- **The lines that a run goes through**, and its outcome once they are printed. One that cannot be
written ends it. -/
structure Prints (run : Run α) (lines : List String) (outcome : Except Stop α) : Prop where
  printed : run.notes.filterMap Note.printed? = writablePrefix lines
  outcome : run.outcome =
    if AllWritable lines then outcome else .error (.defect .unwritable)

/-! ### Lines that can be written -/

theorem writablePrefix_eq_self {lines : List String} (writable : AllWritable lines) :
    writablePrefix lines = lines :=
  List.takeWhile_eq_self_iff.2 writable

theorem writablePrefix_append {lines more : List String} (writable : AllWritable lines) :
    writablePrefix (lines ++ more) = lines ++ writablePrefix more :=
  List.takeWhile_append_of_pos writable

/-- What comes behind a line that cannot be written does not matter. -/
theorem writablePrefix_append_of_not {lines more : List String} (unwritable : ¬AllWritable lines) :
    writablePrefix (lines ++ more) = writablePrefix lines := by
  induction lines with
  | nil => exact absurd (List.forall_mem_nil _) unwritable
  | cons line rest ih =>
    rw [writablePrefix, writablePrefix, List.cons_append]
    cases written : isWritable line with
    | true =>
      have others : ¬AllWritable rest := fun all =>
        unwritable (List.forall_mem_cons.2 ⟨written, all⟩)
      rw [List.takeWhile_cons_of_pos written, List.takeWhile_cons_of_pos written]
      exact congrArg (line :: ·) (ih others)
    | false =>
      have stops : ¬isWritable line = true := by
        rw [written]
        exact Bool.false_ne_true
      rw [List.takeWhile_cons_of_neg stops, List.takeWhile_cons_of_neg stops]

theorem allWritable_append {lines more : List String} :
    AllWritable (lines ++ more) ↔ AllWritable lines ∧ AllWritable more :=
  List.forall_mem_append

/-- A document whose text can be written. -/
def isPrintable (doc : Document) : Bool := isWritable doc.text

theorem writablePrefix_map_text (docs : List Document) :
    writablePrefix (docs.map Document.text) = (docs.takeWhile isPrintable).map Document.text :=
  List.takeWhile_map ..

/-! ### Parts of runs -/

theorem prints_ok (a : α) : Prints (Traced.ok a) [] (.ok a) :=
  ⟨rfl, (if_pos (List.forall_mem_nil _)).symm⟩

theorem prints_print (line : String) : Prints (print line) [line] (.ok ()) := by
  rw [print]
  split
  · rename_i written
    have writable : AllWritable [line] := List.forall_mem_singleton.2 written
    exact ⟨(writablePrefix_eq_self writable).symm, (if_pos writable).symm⟩
  · rename_i unwritten
    have unwritable : ¬AllWritable [line] := mt List.forall_mem_singleton.1 unwritten
    exact ⟨(List.takeWhile_cons_of_neg unwritten).symm, (if_neg unwritable).symm⟩

/-- A run that prints nothing has its outcome. -/
theorem prints_lift (outcome : Except Stop α) : Prints (Traced.lift outcome) [] outcome :=
  ⟨rfl, (if_pos (List.forall_mem_nil _)).symm⟩

/-- Matching prints nothing, for what it notes goes to the log. -/
theorem prints_matching (x : Matching α) :
    Prints (matching x) [] (x.outcome.mapError matchStop) := by
  refine ⟨?_, (if_pos (List.forall_mem_nil _)).symm⟩
  rw [matching, Traced.mapError, Traced.mapNotes, List.filterMap_map]
  exact List.filterMap_eq_nil_iff.2 fun _ _ => rfl

/-- **One run after the other**, if the first one gets as far as its end. -/
theorem Prints.bind {x : Run α} {f : α → Run β} {a : α} {lines more : List String}
    {outcome : Except Stop β} (first : Prints x lines (.ok a))
    (next : Prints (f a) more outcome) :
    Prints (x >>= f) (lines ++ more) outcome := by
  by_cases writable : AllWritable lines
  · have reached : x.outcome = .ok a := by rw [first.outcome, if_pos writable]
    rw [Traced.bind_of_ok reached]
    refine ⟨?_, ?_⟩
    · rw [List.filterMap_append, first.printed, next.printed, writablePrefix_append writable,
        writablePrefix_eq_self writable]
    · simp only [next.outcome, allWritable_append, writable, true_and]
  · have ended : x.outcome = .error (.defect .unwritable) := by
      rw [first.outcome, if_neg writable]
    rw [Traced.bind_of_error ended]
    refine ⟨?_, ?_⟩
    · rw [first.printed, writablePrefix_append_of_not writable]
    · rw [if_neg fun all => writable (allWritable_append.1 all).1]

/-! ### Loops over records -/

/-- How a run ends that reads an input as far as it goes. -/
def Feed.outcome (source : Feed) : Except Stop Unit :=
  match source.fault with
  | none => .ok ()
  | some fault => .error fault.stop

section Loops

variable {f : Nat → Document → Run Unit} {lines : Nat → Document → List String}
  (each : ∀ number doc, Prints (f number doc) (lines number doc) (.ok ()))
include each

/-- **A loop over documents** prints the lines of each of them. -/
theorem prints_forDocuments (number : Nat) (docs : List Document) :
    Prints (forDocuments f number docs)
      ((docs.zipIdx number).flatMap fun numbered => lines numbered.2 numbered.1) (.ok ()) := by
  induction docs generalizing number with
  | nil => exact prints_ok ()
  | cons doc rest ih => exact (each number doc).bind (ih (number + 1))

/-- **A loop over the records of an input** prints the lines of each of them, and ends as the input
does. -/
theorem prints_forFeed (bytes : List UInt8) :
    Prints (forFeed f bytes)
      ((feed bytes).documents.zipIdx.flatMap fun numbered => lines numbered.2 numbered.1)
      (feed bytes).outcome := by
  have ends : Prints (match (feed bytes).fault with
      | none => (return () : Run Unit)
      | some fault => Traced.fail fault.stop) [] (feed bytes).outcome := by
    rw [Feed.outcome]
    cases (feed bytes).fault with
    | none => exact prints_ok ()
    | some fault => exact prints_lift _
  have all := (prints_forDocuments each 0 (feed bytes).documents).bind (f := fun _ => _) ends
  rwa [List.append_nil] at all

end Loops

/-! ### Filtering -/

section Filtering

variable {filters : List Filter} (wellFormed : ∀ filter ∈ filters, filter.WellFormed)
include wellFormed

theorem prints_printMatching (doc : Document) :
    Prints (printMatching filters doc) (if accepts filters doc then [doc.text] else [])
      (.ok ()) := by
  obtain ⟨matched, verdict, -⟩ := exists_matchesAll doc wellFormed
  have silent := prints_matching (matchesAll doc filters)
  have same : accepts filters doc = matched := by
    rw [accepts, verdict]
    rfl
  rw [verdict] at silent
  rw [same]
  cases matched with
  | true => exact silent.bind (prints_print doc.text)
  | false => exact silent.bind (prints_ok ())

/-- **Filtering** prints the records that match, as far as the input goes. -/
theorem prints_runFilter {files : Files} {source : FilterSource}
    (built : source.filters files = .ok filters) (bytes : List UInt8) :
    Prints (runFilter files source bytes)
      (((feed bytes).documents.filter (accepts filters)).map Document.text)
      (feed bytes).outcome := by
  obtain ⟨paths, _, read, -⟩ := exists_readQueries .null wellFormed
  have loop := prints_forFeed (fun _ => prints_printMatching wellFormed) bytes
  rw [flatMap_zipIdx fun doc => if accepts filters doc then [doc.text] else [], flatMap_ite] at loop
  have first : Prints (Traced.lift (source.filters files)) [] (.ok filters) :=
    built ▸ prints_lift _
  have second : Prints (Traced.lift ((readQueries filters).mapError matchStop)) [] (.ok paths) :=
    read ▸ prints_lift _
  exact first.bind (second.bind loop)

end Filtering

/-- **The first malformed query** of a list of filters, by its error. -/
def FirstMalformed (filters : List Filter) (error : Query.Error) : Prop :=
  ∃ before filter after, filters = before ++ filter :: after ∧
    (∀ earlier ∈ before, earlier.WellFormed) ∧ Query.parse filter.query = .error error

/-- **A malformed query** ends filtering before anything is read. -/
theorem runFilter_of_malformed {files : Files} {source : FilterSource} {filters : List Filter}
    {error : Query.Error} (built : source.filters files = .ok filters)
    (malformed : FirstMalformed filters error) (bytes : List UInt8) :
    runFilter files source bytes = Traced.fail (.failed error.message) := by
  obtain ⟨before, filter, after, rfl, earlier, malformed⟩ := malformed
  have first : (Traced.lift (source.filters files) : Run _).outcome = .ok _ := built
  have second : (Traced.lift ((readQueries (before ++ filter :: after)).mapError matchStop) :
      Run _).outcome = .error (.failed error.message) := by
    rw [readQueries_append_error earlier malformed]
    rfl
  rw [runFilter, Traced.bind_of_ok first, Traced.bind_of_error second]
  rfl

/-! ### Explaining -/

theorem prints_printOutcomes {filters : List Filter}
    (wellFormed : ∀ filter ∈ filters, filter.WellFormed) (number : Nat) (doc : Document) :
    Prints (printOutcomes number doc filters)
      (filters.map fun filter => (explanation number doc filter).text) (.ok ()) := by
  induction filters with
  | nil => exact prints_ok ()
  | cons filter rest ih =>
    obtain ⟨⟨path, parsed⟩, others⟩ := List.forall_mem_cons.1 wellFormed
    have silent := prints_matching (explain doc filter)
    rw [outcome_explain parsed, ← outcomeOn_eq parsed] at silent
    exact silent.bind ((prints_print _).bind (ih others))

/-- **Explaining** prints a line for each record and filter, as far as the input goes. -/
theorem prints_runExplain {files : Files} {source : FilterSource} {filters : List Filter}
    (wellFormed : ∀ filter ∈ filters, filter.WellFormed) (ne : filters ≠ [])
    (built : source.filters files = .ok filters) (bytes : List UInt8) :
    Prints (runExplain files source bytes)
      ((feed bytes).documents.zipIdx.flatMap fun numbered =>
        filters.map fun filter => (explanation numbered.2 numbered.1 filter).text)
      (feed bytes).outcome := by
  have loop := prints_forFeed (prints_printOutcomes wellFormed) bytes
  have first : Prints (Traced.lift (source.filters files)) [] (.ok filters) :=
    built ▸ prints_lift _
  refine first.bind ?_
  rw [if_neg (by simpa using ne)]
  exact loop

/-! ### Querying -/

/-- **Querying** prints the values for each record, as far as the input goes. -/
theorem prints_runQuery {text : String} {query : Query} (parsed : Query.parse text = .ok query)
    (bytes : List UInt8) :
    Prints (runQuery text bytes)
      ((feed bytes).documents.map fun doc => (Document.array (query.resolve doc)).text)
      (feed bytes).outcome := by
  have loop := prints_forFeed (fun _ doc => prints_print (Document.array (query.resolve doc)).text)
    bytes
  rw [flatMap_zipIdx fun doc => [(Document.array (query.resolve doc)).text]] at loop
  have first : Prints
      (Traced.lift ((Query.parse text).mapError fun error => Stop.failed error.message)) []
      (.ok query) := parsed ▸ prints_lift _
  rw [List.map_eq_flatMap]
  exact first.bind loop

/-! ### Command lines -/

/-- **A command line that gives a task its input**: its words name the task and nothing besides, the
configuration file is there if one is named, and so is the input, which holds the given bytes. -/
def Calls (world : World) (words : List String) (task : String → Task) (config : Option String)
    (bytes : List UInt8) : Prop :=
  ∃ selection input, Selection.read words = .ok selection ∧
    selection.command.task selection.words = .ok (task input, []) ∧
      checkFile world.files config = .ok () ∧ namedInput world input = .ok bytes

/-- A command line that filters the given bytes. -/
def CallsFilter (world : World) (words : List String) (source : FilterSource)
    (bytes : List UInt8) : Prop :=
  Calls world words (.filter source) source.config bytes

/-- A command line that explains filters on the given bytes. -/
def CallsExplain (world : World) (words : List String) (source : FilterSource)
    (bytes : List UInt8) : Prop :=
  Calls world words (.explain source) source.config bytes

/-- A command line that asks for the values of a query on the given bytes. -/
def CallsQuery (world : World) (words : List String) (text : String) (bytes : List UInt8) : Prop :=
  Calls world words (.query text) none bytes

section Reports

variable {world : World} {words : List String} {task : String → Task} {config : Option String}
  {bytes : List UInt8} {run : Run Unit}

/-- **The report of a command line** is that of its run, once it is known which run its task
starts. -/
theorem Calls.report (calls : Calls world words task config bytes)
    (starts : ∀ input, checkFile world.files config = .ok () → namedInput world input = .ok bytes →
      (task input).start world = .ok run) (threshold : Option LogLevel) :
    ∃ level, execute world threshold words = .ofRun level run := by
  obtain ⟨selection, input, read, asks, there, given⟩ := calls
  refine ⟨selection.threshold, ?_⟩
  rw [execute, read]
  simp only [Selection.run, asks, Task.run, starts input there given, if_pos]

theorem CallsFilter.report {source : FilterSource} (calls : CallsFilter world words source bytes)
    (threshold : Option LogLevel) :
    ∃ level, execute world threshold words = .ofRun level (runFilter world.files source bytes) := by
  refine Calls.report calls (fun input there given => ?_) threshold
  rw [Task.start, there, given]
  rfl

theorem CallsExplain.report {source : FilterSource} (calls : CallsExplain world words source bytes)
    (threshold : Option LogLevel) :
    ∃ level, execute world threshold words =
      .ofRun level (runExplain world.files source bytes) := by
  refine Calls.report calls (fun input there given => ?_) threshold
  rw [Task.start, there, given]
  rfl

theorem CallsQuery.report {text : String} (calls : CallsQuery world words text bytes)
    (threshold : Option LogLevel) :
    ∃ level, execute world threshold words = .ofRun level (runQuery text bytes) := by
  refine Calls.report calls (fun input _ given => ?_) threshold
  rw [Task.start, given]
  rfl

end Reports

/-- **What is printed**, as one text. -/
def Report.stdout (report : Report) : String :=
  printedText report.printed

section Endings

variable {run : Run Unit} {printed : List String} (level : LogLevel)

theorem Prints.printed_ofRun {outcome : Except Stop Unit} (prints : Prints run printed outcome) :
    (Report.ofRun level run).printed = writablePrefix printed :=
  prints.printed

/-- A command whose lines can all be written ends with the outcome that it has then. -/
theorem Prints.ending_ofRun {outcome : Except Stop Unit} (prints : Prints run printed outcome)
    (writable : AllWritable printed) : (Report.ofRun level run).ending = endingOf outcome := by
  rw [Report.ofRun, prints.outcome, if_pos writable]

/-- **A command ends with a defect** at a line that cannot be written. -/
theorem Prints.unwritable {outcome : Except Stop Unit} (prints : Prints run printed outcome)
    (unwritable : ¬AllWritable printed) :
    (Report.ofRun level run).ending = .stopped (.defect .unwritable) := by
  rw [Report.ofRun, prints.outcome, if_neg unwritable]
  rfl

omit [StandIns] in
/-- An input does not end with the defect that a line has which cannot be written. -/
theorem Feed.ending_outcome_ne (source : Feed) :
    endingOf source.outcome ≠ .stopped (.defect .unwritable) := by
  rw [Feed.outcome]
  cases source.fault with
  | none => exact Ending.noConfusion
  | some fault => cases fault <;> simp [FeedFault.stop, endingOf]

/-- **Two commands that read one input end alike** exactly if both have a line that cannot be
written or none has. -/
theorem Prints.ending_eq_iff {run' : Run Unit} {printed' : List String} (level' : LogLevel)
    {source : Feed} (prints : Prints run printed source.outcome)
    (prints' : Prints run' printed' source.outcome) :
    (Report.ofRun level run).ending = (Report.ofRun level' run').ending ↔
      (AllWritable printed ↔ AllWritable printed') := by
  have other := source.ending_outcome_ne
  by_cases writable : AllWritable printed
  · rw [prints.ending_ofRun level writable, iff_true_left writable]
    by_cases writable' : AllWritable printed'
    · rw [prints'.ending_ofRun level' writable', eq_self_iff_true, iff_true_left trivial]
      exact writable'
    · rw [prints'.unwritable level' writable', iff_false_left other]
      exact writable'
  · rw [prints.unwritable level writable, iff_false_left writable]
    by_cases writable' : AllWritable printed'
    · rw [prints'.ending_ofRun level' writable', eq_comm, iff_false_left other]
      exact not_not_intro writable'
    · rw [prints'.unwritable level' writable', eq_self_iff_true, iff_true_left trivial]
      exact writable'

variable {text : String} (prints : Prints run printed (feed (Utf8.encode text)).outcome)
  (writable : AllWritable printed) {lines : List (List Char)}
  (split : Text.SplitsInto text.toList lines) {docs : List Document}
include prints writable split

/-- A command that reads its input to the end finishes. -/
theorem Prints.finished (records : Records lines docs) :
    (Report.ofRun level run).ending = .finished := by
  rw [prints.ending_ofRun level writable, feed_of_records split records]
  rfl

/-- **A command stops at a line that is not JSON**, and its last message tells the number. -/
theorem Prints.stopped {number : Nat} {flaw : Json.Flaw} (stops : StopsAt lines docs number flaw) :
    let message := "Invalid JSON on line " ++ Decimal.natString number ++ ": " ++ flaw.message
    (Report.ofRun level run).ending = .stopped (.failed message) ∧
      (Report.ofRun level run).messages.getLast? = some ("Error: " ++ message) := by
  rw [Report.ofRun, prints.outcome, if_pos writable, feed_of_stopsAt split stops]
  exact ⟨rfl, List.getLast?_concat⟩

end Endings

end CommandLine

end DocumentFilter
