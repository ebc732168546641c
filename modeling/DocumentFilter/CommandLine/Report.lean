import DocumentFilter.CommandLine.Run

/-!
# Reports on runs

What is left of a run for those who look at it: the lines that it printed, those on the
error output, the requests and how it ended. The log goes to the error output from a
threshold on, which stays until the next run for which a command is found.

* `DocumentFilter.CommandLine.execute`: runs a command line.
-/

namespace DocumentFilter.CommandLine

variable [StandIns]

/-- How a run ends. -/
inductive Ending
  | finished
  | stopped (stop : Stop)
deriving DecidableEq

/-- The exit status for an ending. -/
def Ending.status : Ending → Nat
  | .finished => 0
  | .stopped (.noTask .help) => 0
  | .stopped (.noTask .usage) => 2
  | .stopped (.failed _) => 1
  | .stopped (.defect _) => 1

/-- **A report**: lines printed, messages on the error output, requests, the ending and the
threshold of the log, where one has been set. -/
structure Report where
  printed : List String
  messages : List String
  requests : List GitHub.Request
  ending : Ending
  threshold : Option LogLevel

/-- A record that passes a threshold. -/
def passes (threshold : LogLevel) (record : LogRecord) : Bool :=
  threshold = .debug || record.isWarning

/-- A line that a note prints. -/
def Note.printed? : Note → Option String
  | .printed line => some line
  | _ => none

/-- A request that a note tells of. -/
def Note.request? : Note → Option GitHub.Request
  | .request r => some r
  | _ => none

/-- What a note puts on the error output. -/
def Note.message? (threshold : LogLevel) : Note → Option String
  | .record r => if passes threshold r then some r.line else none
  | _ => none

/-- What an ending puts on the error output. -/
def Ending.messages : Ending → List String
  | .stopped (.failed message) => ["Error: " ++ message]
  | _ => []

/-- The ending for an outcome. -/
def endingOf : Except Stop Unit → Ending
  | .ok () => .finished
  | .error stop => .stopped stop

/-- The report on a run. -/
def Report.ofRun (threshold : LogLevel) (run : Run Unit) : Report :=
  let ending := endingOf run.outcome
  { printed := run.notes.filterMap Note.printed?
    messages := run.notes.filterMap (Note.message? threshold) ++ ending.messages
    requests := run.notes.filterMap Note.request?
    ending := ending
    threshold := some threshold }

/-- The report where no command is found. -/
def Report.ofNoTask (threshold : Option LogLevel) (reason : NoTask) : Report :=
  ⟨[], [], [], .stopped (.noTask reason), threshold⟩

/-- The threshold of the log for a command line. -/
def Selection.threshold (selection : Selection) : LogLevel :=
  if selection.debug then .debug else .warning

/-- The task that a command line asks for, if any. -/
def taskOf? (words : List String) : Option Task :=
  match Selection.read words with
  | .error _ => none
  | .ok selection => (selection.command.task selection.words).toOption.map (·.1)

/-- What a command does with the words after its name. -/
def Selection.run (world : World) (selection : Selection) : Run Unit :=
  match selection.command.task selection.words with
  | .error reason => Traced.fail (.noTask reason)
  | .ok (task, surplus) => task.run world surplus

/-- **Runs a command line**; the threshold of the log is the one that was set before. -/
def execute (world : World) (threshold : Option LogLevel) (words : List String) : Report :=
  match Selection.read words with
  | .error reason => .ofNoTask threshold reason
  | .ok selection => .ofRun selection.threshold (selection.run world)

end DocumentFilter.CommandLine
