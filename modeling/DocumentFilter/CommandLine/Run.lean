import DocumentFilter.CommandLine.Feed
import DocumentFilter.CommandLine.Task
import DocumentFilter.Config.Load
import DocumentFilter.GitHub.Source

/-!
# Running a task

The four tasks, on a given surrounding: files, a standard input, settings, what the GitHub
interface answers and the time. A run prints lines and leaves requests and records of the
log. Before it starts, the files that it is told to read must be there.

* `DocumentFilter.CommandLine.World`: the surrounding of a run;
* `DocumentFilter.CommandLine.Task.run`: runs a task.
-/

namespace DocumentFilter.CommandLine

variable [StandIns]

/-- The surrounding of a run. -/
structure World where
  files : Files
  input : List UInt8
  environment : GitHub.Environment
  api : GitHub.Api
  now : Moment

/-- What a run notes: lines that it prints, requests and records of the log. -/
inductive Note
  | printed (line : String)
  | request (request : GitHub.Request)
  | record (record : LogRecord)

/-- A failure that a run does not foresee: of bytes to decode, a text to encode, a value, a
place in a list, a name, a kind of value, a number or something that is not there. -/
inductive Defect
  | encoding
  | unwritable
  | value
  | place
  | name
  | kind
  | range
  | absence
deriving DecidableEq

/-- Why a run ends early: there is no task, it fails for a reason that it reports, or it
fails for one that it does not foresee. -/
inductive Stop
  | noTask (reason : NoTask)
  | failed (message : String)
  | defect (defect : Defect)
deriving DecidableEq

/-- Runs. -/
abbrev Run := Traced Note Stop

/-- A line that can be written: no half of a pair is in it. -/
def isWritable (line : String) : Bool :=
  line.toList.all fun c => (StandIns.half? c).isNone

/-- Prints a line, or nothing of it where it cannot be written. -/
def print (line : String) : Run Unit :=
  if isWritable line then Traced.note (.printed line) else Traced.fail (.defect .unwritable)

/-- Ends a run with a message. -/
def fail {α : Type} (message : String) : Run α := Traced.fail (.failed message)

/-! ### Failures of the parts of a run -/

/-- How a run ends when its input does. -/
def FeedFault.stop : FeedFault → Stop
  | .malformed line flaw =>
    .failed ("Invalid JSON on line " ++ Decimal.natString line ++ ": " ++ flaw.message)
  | .oversized => .defect .value
  | .notUtf8 => .defect .encoding

/-- How a run ends when matching fails. -/
def matchStop : MatchError → Stop
  | .query error => .failed error.message
  | .collection _ => .defect .kind
  | .unsupported u => .failed u.message

/-- How a run ends when a configuration cannot be loaded. -/
def configStop (error : ConfigError) : Stop :=
  match error.failure with
  | .reported => .failed error.headline
  | .badPath => .defect .value
  | .badEncoding => .defect .encoding
  | .badScalar => .defect .value
  | .hugeNumber => .defect .range
  | .emptyNumber => .defect .place
  | .badWord => .defect .name
  | .noDate => .defect .absence
  | .notText => .defect .kind

/-- How a run ends when events cannot be collected. -/
def gitHubStop (error : GitHub.Error) : Stop :=
  match error with
  | .itemKind _ => .defect .kind
  | .payload _ _ => .defect .value
  | .matching error => matchStop error
  | .outOfTime => .defect .range
  | error => .failed error.message

/-- A computation that matches documents, as part of a run. -/
def matching {α : Type} (x : Matching α) : Run α :=
  (x.mapNotes fun note => .record note.record).mapError matchStop

/-- A note of a computation that asks GitHub, as one of a run. -/
def noteOf : GitHub.Note → Note
  | .request request => .request request
  | .record record => .record record

/-- A computation that asks GitHub, as part of a run. -/
def asking {α : Type} (x : GitHub.Asking α) : Run α :=
  (x.mapNotes noteOf).mapError gitHubStop

/-! ### Filters and documents -/

/-- The filter that is given by its parts, if any of them is; then all must be. -/
def FilterSource.inline (source : FilterSource) : Except Stop (List Filter) :=
  match source.query, source.operation, source.values with
  | none, none, [] => .ok []
  | some query, some word, value :: values =>
    match Operation.ofText? word with
    | some operation => .ok [⟨query, operation, value :: values, List.cons_ne_nil _ _⟩]
    | none =>
      .error (.failed ("Invalid filter: " ++ faultHeading "Filter"
        [⟨[.key "operation"], .unknownOperation (Text.quoted word)⟩]))
  | _, _, _ => .error (.failed "--query, --operation and --value must be given together")

/-- The filters of the file. -/
def FilterSource.loaded (files : Files) (source : FilterSource) : Except Stop (List Filter) :=
  match source.config with
  | none => .ok []
  | some path => (loadFilters files path).mapError configStop

/-- **The filters that a command is told**: those of the file and then the one given by its
parts. -/
def FilterSource.filters (files : Files) (source : FilterSource) : Except Stop (List Filter) := do
  let loaded ← source.loaded files
  return loaded ++ (← source.inline)

/-- Does something with each of several documents, which are counted from the given number
on. -/
def forDocuments (f : Nat → Document → Run Unit) (number : Nat) : List Document → Run Unit
  | [] => .ok ()
  | doc :: rest => do
    f number doc
    forDocuments f (number + 1) rest

/-- Does something with each document of an input, and fails where the input does. -/
def forFeed (f : Nat → Document → Run Unit) (bytes : List UInt8) : Run Unit := do
  let source := feed bytes
  forDocuments f 0 source.documents
  match source.fault with
  | none => return ()
  | some fault => Traced.fail fault.stop

/-! ### The tasks -/

/-- Prints a document if it matches all filters. -/
def printMatching (filters : List Filter) (doc : Document) : Run Unit := do
  if ← matching (matchesAll doc filters) then print doc.text

/-- An outcome as a document: the number of the document that it is for, the filter, the
values that its query led to, the verdict and the comparisons that are not defined. -/
def outcomeDocument (number : Nat) (outcome : Outcome) : Document :=
  .object
    [("record", .number (.int number)),
      ("query", .string outcome.filter.query),
      ("operation", .string outcome.filter.operation.symbol),
      ("values", .array (outcome.filter.values.map .string)),
      ("resolved", .array outcome.values),
      ("matched", .bool outcome.verdict.matched),
      ("unsupported", .array (outcome.verdict.unsupported.map fun u => .string u.message))]

/-- Prints the outcome of each filter on a document. -/
def printOutcomes (number : Nat) (doc : Document) : List Filter → Run Unit
  | [] => .ok ()
  | filter :: rest => do
    let outcome ← matching (explain doc filter)
    print (outcomeDocument number outcome).text
    printOutcomes number doc rest

/-- **Prints the documents that match all filters.** A malformed query is an error even
without documents. -/
def runFilter (files : Files) (source : FilterSource) (bytes : List UInt8) : Run Unit := do
  let filters ← Traced.lift (source.filters files)
  let _ ← Traced.lift ((readQueries filters).mapError matchStop)
  forFeed (fun _ doc => printMatching filters doc) bytes

/-- **Prints how each filter went on each document.** -/
def runExplain (files : Files) (source : FilterSource) (bytes : List UInt8) : Run Unit := do
  let filters ← Traced.lift (source.filters files)
  if filters.isEmpty then fail "no filters given"
  else forFeed (fun number doc => printOutcomes number doc filters) bytes

/-- **Prints the values that a query leads to**, one array for each document. -/
def runQuery (text : String) (bytes : List UInt8) : Run Unit := do
  let query ← Traced.lift ((Query.parse text).mapError fun error => .failed error.message)
  forFeed (fun _ doc => print (Document.text (.array (query.resolve doc)))) bytes

/-- Prints events. -/
def printEvents : List GitHub.Event → Run Unit
  | [] => .ok ()
  | event :: rest => do
    print event.document.text
    printEvents rest

/-- **Collects events and prints them**, if all could be collected. -/
def runGitHub (world : World) (path : String) (minutes : Nat) (host token : Option String) :
    Run Unit := do
  let config ← Traced.lift ((GitHub.loadConfig world.files path).mapError configStop)
  let client ← asking (GitHub.Client.ofSettings world.environment host token)
  printEvents (← asking (client.events world.api config world.now minutes))

/-! ### Files that must be there -/

/-- The bytes of a file that a command line names. -/
def namedFile (files : Files) (path : String) : Except Stop (List UInt8) :=
  if path.toList.contains '\x00' then .error (.defect .value)
  else (files path).mapError fun _ => .noTask .usage

/-- The input that a command line names. -/
def namedInput (world : World) (input : String) : Except Stop (List UInt8) :=
  if input = "-" then .ok world.input else namedFile world.files input

/-- Checks that a file is there, if one is named. -/
def checkFile (files : Files) : Option String → Except Stop Unit
  | none => .ok ()
  | some path => (namedFile files path).map fun _ => ()

/-- The path by which a configuration file is asked for and the one by which it is read. -/
def configPaths (config : Option String) : List String :=
  config.toList.flatMap fun path => [path, normalPath path]

/-- The paths of the files that a task reads, the standard input apart. -/
def Task.paths : Task → List String
  | .filter source input => configPaths source.config ++ [input].filter (· ≠ "-")
  | .explain source input => configPaths source.config ++ [input].filter (· ≠ "-")
  | .query _ input => [input].filter (· ≠ "-")
  | .github config _ _ _ => configPaths config

/-- Whether a task reads the standard input. -/
def Task.readsInput : Task → Bool
  | .filter _ input => input = "-"
  | .explain _ input => input = "-"
  | .query _ input => input = "-"
  | .github _ _ _ _ => false

/-- What a task does once its files are there. -/
def Task.start (world : World) : Task → Except Stop (Run Unit)
  | .filter source input => do
    checkFile world.files source.config
    return runFilter world.files source (← namedInput world input)
  | .explain source input => do
    checkFile world.files source.config
    return runExplain world.files source (← namedInput world input)
  | .query text input => do
    return runQuery text (← namedInput world input)
  | .github config minutes host token => do
    checkFile world.files config
    return runGitHub world config minutes host token

/-- **Runs a task.** Words that it has no use for are an error, but only once its files are
there. -/
def Task.run (world : World) (task : Task) (surplus : List String) : Run Unit :=
  match task.start world with
  | .error stop => Traced.fail stop
  | .ok run => if surplus = [] then run else Traced.fail (.noTask .usage)

end DocumentFilter.CommandLine
