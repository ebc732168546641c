import DocumentFilter.GitHub.Client
import DocumentFilter.GitHub.Config
import DocumentFilter.GitHub.Event

/-!
# Collecting events

For each repository of a configuration the pull requests that were updated lately are
listed and those that match the filters are turned into events: first their comments, then
their issue events and then the pull request itself. A repository for which anything fails
yields nothing but a warning, and the others are not affected.

* `DocumentFilter.GitHub.Client.queryEvents`: the events of one repository;
* `DocumentFilter.GitHub.Client.events`: those of a whole configuration.
-/

namespace DocumentFilter.GitHub

variable [StandIns]

/-- The log's name for the collector. -/
def sourcePart : String := "webql.vendor.github.events"

/-- The words for an error. -/
def Error.message : Error → String
  | .noToken => "token not provided"
  | .unreachable endpoint reason => "Request to " ++ endpoint ++ " failed: " ++ reason
  | .malformed endpoint error => "Invalid JSON from " ++ endpoint ++ ": " ++ error.message
  | .notArray endpoint => "Expected a JSON array from " ++ endpoint
  | .itemKind kind => "no field in " ++ kind.name
  | .payload title faults => faultHeading title faults
  | .matching (.query error) => error.message
  | .matching (.collection kind) => Scalar.refusal kind
  | .matching (.unsupported u) => u.message
  | .outOfTime => "date value out of range"

/-- The errors after which the next repository is tried. -/
def Error.isSkipped : Error → Bool
  | .itemKind _ => false
  | .matching (.collection _) => false
  | .outOfTime => false
  | _ => true

/-- A checked payload; the title names what was expected. -/
def expect {α : Type} (title : String) (checked : Checked α) : Asking α :=
  Traced.lift (checked.mapError (.payload title))

/-- The event of a comment. -/
def commentEvent (parent priority : Int) (doc : Document) : Asking Event := do
  let comment ← expect "IssueCommentResponse" (IssueComment.ofDocument doc)
  return {
    kind := .comment
    id := Decimal.intString comment.id
    parent := some (Decimal.intString parent)
    name := comment.body
    link := some comment.htmlUrl
    date := comment.updatedAt
    priority := priority
    raw := doc }

/-- The event of an issue event. -/
def issueEvent (parent priority : Int) (doc : Document) : Asking Event := do
  let event ← expect "IssueEventResponse" (IssueEvent.ofDocument doc)
  return {
    kind := .issueEvent
    id := Decimal.intString event.id
    parent := some (Decimal.intString parent)
    name := event.event
    link := none
    date := event.createdAt
    priority := priority
    raw := doc }

/-- The event of a pull request. -/
def pullRequestEvent (pullRequest : PullRequest) (priority : Int) (doc : Document) : Event where
  kind := .pullRequest
  id := Decimal.intString pullRequest.number
  parent := none
  name := pullRequest.title
  link := some pullRequest.htmlUrl
  date := pullRequest.updatedAt
  priority := priority
  raw := doc

/-- Applies a computation to each of several documents. -/
def eachDocument {α : Type} (f : Document → Asking α) : List Document → Asking (List α)
  | [] => .ok []
  | doc :: rest => do
    let a ← f doc
    let as ← eachDocument f rest
    return a :: as

/-- Whether a document matches filters, with the notes on it in the log. -/
def matchesFilters (doc : Document) (filters : List Filter) : Asking Bool :=
  ((matchesAll doc filters).mapNotes fun note => .record note.record).mapError .matching

namespace Client

/-- The events of one pull request: none if it does not match the filters. -/
def pullRequestEvents (client : Client) (api : Api) (query : PullRequestQuery) (since : Moment)
    (doc : Document) : Asking (List Event) := do
  let pullRequest ← expect "PullRequestResponse" (PullRequest.ofDocument doc)
  let number := pullRequest.number
  if ← matchesFilters doc query.filters then
    let comments ← client.issueComments api number query.owner query.repo since
    let commentEvents ← eachDocument (commentEvent number query.priority) comments
    let events ← client.issueEvents api number query.owner query.repo since
    let issueEvents ← eachDocument (issueEvent number query.priority) events
    return commentEvents ++ issueEvents ++ [pullRequestEvent pullRequest query.priority doc]
  else
    log .debug sourcePart
      ("pull request " ++ Decimal.intString number ++ " did not match filters")
    return []

/-- The events of the pull requests to watch in one repository. -/
def queryEvents (client : Client) (api : Api) (query : PullRequestQuery) (since : Moment) :
    Asking (List Event) := do
  let docs ← client.pullRequests api query.owner query.repo since
  let events ← eachDocument (client.pullRequestEvents api query since) docs
  return events.flatten

/-- The events of several repositories; one that fails is skipped with a warning. -/
def eventsSince (client : Client) (api : Api) (since : Moment) :
    List PullRequestQuery → Asking (List Event)
  | [] => .ok []
  | query :: rest => do
    match ← (client.queryEvents api query since).attempt with
    | .ok events =>
      let more ← client.eventsSince api since rest
      return events ++ more
    | .error error =>
      if error.isSkipped then
        log .warning sourcePart
          ("skipping " ++ query.owner ++ "/" ++ query.repo ++ ": " ++ error.message)
        client.eventsSince api since rest
      else Traced.fail error

/-- The instant that lies some minutes before another. -/
def minutesBefore (now : Moment) (minutes : Int) : Asking Moment :=
  match now.shift? (-(minutes * 60000000)) with
  | some since => .ok since
  | none => .fail .outOfTime

/-- **The events of the last minutes** in all repositories of a configuration. -/
def events (client : Client) (api : Api) (config : Config) (now : Moment) (minutes : Int) :
    Asking (List Event) := do
  client.eventsSince api (← minutesBefore now minutes) config.queries

end Client

/-! ### Settings -/

/-- The settings in the environment of a program. -/
structure Environment where
  token : Option String
  host : Option String

/-- The host that is asked unless another one is named. -/
def defaultHost : String := "https://api.github.com"

/-- The first of several texts that is there and not empty. -/
def firstGiven : List (Option String) → Option String
  | [] => none
  | some "" :: rest => firstGiven rest
  | some s :: _ => some s
  | none :: rest => firstGiven rest

/-- The host to ask: the given one, else that of the environment, else the default. -/
def hostOf (environment : Environment) (host : Option String) : String :=
  dropSlashes ((firstGiven [host, environment.host]).getD defaultHost)

/-- The token to show: the given one, else that of the environment. -/
def tokenOf (environment : Environment) (token : Option String) : Option String :=
  firstGiven [token, environment.token]

/-- **The client for the settings**, which include a token. -/
def Client.ofSettings (environment : Environment) (host token : Option String) :
    Asking Client :=
  match tokenOf environment token with
  | none => .fail .noToken
  | some token => do
    let host := hostOf environment host
    log .debug sourcePart ("create new github event puller for " ++ host)
    return .ofHost host token

end DocumentFilter.GitHub
