import DocumentFilter.CommandLine.Arguments
import DocumentFilter.Config.Integer

/-!
# Tasks

What a command line asks for. It names one of four commands, after an option for all of
them; the options and words after the name are the command's own.

* `DocumentFilter.CommandLine.Task`: the four tasks, each with what it is told;
* `DocumentFilter.CommandLine.Selection.read`: finds the command;
* `DocumentFilter.CommandLine.Command.task`: reads what the command is told.
-/

namespace DocumentFilter.CommandLine

/-- A command. -/
inductive Command
  | filter
  | query
  | explain
  | github
deriving DecidableEq

/-- The word for a command. -/
def Command.name : Command → String
  | .filter => "filter"
  | .query => "query"
  | .explain => "explain"
  | .github => "github"

/-- The command that a word names. -/
def Command.ofName? (word : String) : Option Command :=
  [Command.filter, .query, .explain, .github].find? fun command => command.name = word

/-- Where filters come from: a file, and the parts of one more filter. -/
structure FilterSource where
  config : Option String
  query : Option String
  operation : Option String
  values : List String
deriving DecidableEq

/-- **A task.** The input of a task is a file or, as a dash, the standard input. -/
inductive Task
  | filter (source : FilterSource) (input : String)
  | explain (source : FilterSource) (input : String)
  | query (text input : String)
  | github (config : String) (minutes : Nat) (host token : Option String)
deriving DecidableEq

/-- Why a command line names no task: it asks for help, or it is malformed. -/
inductive NoTask
  | help
  | usage
deriving DecidableEq

/-! ### The command -/

/-- The option that asks for help. -/
def helpSwitch : Switch := ⟨"help", none, false⟩

/-- The options before the command. -/
def commonSwitches : List Switch := [⟨"debug", none, false⟩, helpSwitch]

/-- A command with the words after its name, and whether to say more on the way. -/
structure Selection where
  debug : Bool
  command : Command
  words : List String
deriving DecidableEq

/-- **The command that a command line names.** -/
def Selection.read (words : List String) : Except NoTask Selection :=
  match Arguments.read commonSwitches false words with
  | none => .error .usage
  | some arguments =>
    if arguments.has "help" then .error .help
    else
      match arguments.words with
      | [] => .error .usage
      | name :: words =>
        match Command.ofName? name with
        | none => .error .usage
        | some command => .ok ⟨arguments.has "debug", command, words⟩

/-! ### What a command is told -/

/-- The options of a command that takes filters. -/
def filterSwitches : List Switch :=
  [⟨"config", some 'c', true⟩, ⟨"query", some 'q', true⟩, ⟨"operation", some 'o', true⟩,
    ⟨"value", some 'v', true⟩, helpSwitch]

/-- The options of the command that asks GitHub. -/
def gitHubSwitches : List Switch :=
  [⟨"minutes-ago", some 'm', true⟩, ⟨"host", none, true⟩, ⟨"token", none, true⟩, helpSwitch]

/-- The options of a command. -/
def Command.switches : Command → List Switch
  | .filter => filterSwitches
  | .explain => filterSwitches
  | .query => [helpSwitch]
  | .github => gitHubSwitches

/-- The minutes to look back, where nothing is said: those of a day. -/
def defaultMinutes : Nat := 1440

/-- The number that a word stands for: an optional sign and digits of any script, which
single underscores may separate, with white space around them. It must not be negative, nor
have more than 4300 digits. -/
def countOf? (word : String) : Option Nat :=
  let (negative, cs) := Check.integerSign (Check.trimSpace word.toList)
  match Check.groupedDigits? Text.digit? cs with
  | none => none
  | some ds =>
    let n := Decimal.value ds
    if Check.integerDigits < ds.length ∨ (negative ∧ n ≠ 0) then none else some n

/-- Where the filters of a command come from. -/
def FilterSource.ofArguments (arguments : Arguments) : FilterSource where
  config := arguments.last? "config"
  query := arguments.last? "query"
  operation := arguments.last? "operation"
  values := arguments.all "value"

/-- The input among the words of a command, and the words after it. -/
def inputOf : List String → String × List String
  | [] => ("-", [])
  | input :: surplus => (input, surplus)

/-- The minutes to look back that are given; none where they are malformed. -/
def minutesOf? (arguments : Arguments) : Option Nat :=
  match arguments.last? "minutes-ago" with
  | none => some defaultMinutes
  | some word => countOf? word

/-- The task of a command by its arguments, and the words that it has no use for. -/
def Command.taskOf? (command : Command) (arguments : Arguments) : Option (Task × List String) :=
  match command, arguments.words with
  | .filter, words =>
    some (.filter (.ofArguments arguments) (inputOf words).1, (inputOf words).2)
  | .explain, words =>
    some (.explain (.ofArguments arguments) (inputOf words).1, (inputOf words).2)
  | .query, [] => none
  | .query, text :: words => some (.query text (inputOf words).1, (inputOf words).2)
  | .github, [] => none
  | .github, config :: surplus =>
    (minutesOf? arguments).map fun minutes =>
      (.github config minutes (arguments.last? "host") (arguments.last? "token"), surplus)

/-- **What a command is told**, and the words that it has no use for. -/
def Command.task (command : Command) (words : List String) :
    Except NoTask (Task × List String) :=
  match Arguments.read command.switches true words with
  | none => .error .usage
  | some arguments =>
    if arguments.has "help" then .error .help
    else
      match command.taskOf? arguments with
      | none => .error .usage
      | some task => .ok task

end DocumentFilter.CommandLine
