import DocumentFilter.Document.Reader
import DocumentFilter.GitHub.Payload
import DocumentFilter.Filter.Matching

/-!
# Listings of the GitHub interface

A listing is read page by page, from page 1 on. It ends at the first page that is empty or
whose status says that the request failed; a page that cannot be fetched or read is an
error. What the interface answers is given by `DocumentFilter.GitHub.Api`, which holds for
every path the answers to its pages; after the last of them all pages are empty.

* `DocumentFilter.GitHub.Client.read`: the items of a listing;
* `DocumentFilter.GitHub.isAfter`: the age of an item;
* `DocumentFilter.GitHub.Client.pullRequests` and its likes: the three listings.
-/

namespace DocumentFilter.GitHub

variable [StandIns]

/-! ### Requests and replies -/

/-- A request: an address and the parameters of its query. -/
structure Request where
  url : String
  params : List (String × String)
  timeout : Nat
  redirects : Bool
deriving DecidableEq

/-- What comes back: a status and a body, or a reason why nothing does. -/
inductive Reply
  | unreachable (reason : String)
  | answered (status : Int) (body : String)
deriving DecidableEq

/-- The replies to the pages of every path. -/
abbrev Api := String → List Reply

/-- The reply to every page after the last one. -/
def Reply.emptyPage : Reply := .answered 200 "[]"

/-- A status of a request that failed. -/
def isFailing (status : Int) : Bool :=
  400 ≤ status && status < 600

/-- Why events cannot be collected. -/
inductive Error
  /-- There is no token. -/
  | noToken
  /-- A request got no reply. -/
  | unreachable (endpoint reason : String)
  /-- A page is not JSON. -/
  | malformed (endpoint : String) (error : Json.Error)
  /-- A page is JSON, but no array. -/
  | notArray (endpoint : String)
  /-- An item of a page is of a kind that cannot be asked for a field. -/
  | itemKind (kind : Kind)
  /-- A payload has faults. -/
  | payload (title : String) (faults : List Fault)
  /-- The filters cannot be matched. -/
  | matching (error : MatchError)
  /-- The time from which on to look lies outside of the years 1 to 9999. -/
  | outOfTime

/-- What is noted on the way: requests and records of the log. -/
inductive Note
  | request (request : Request)
  | record (record : LogRecord)

/-- Computations that ask the interface. -/
abbrev Asking := Traced Note Error

/-- Notes a record of the log. -/
def log (level : LogLevel) (part message : String) : Asking Unit :=
  Traced.note (.record ⟨level, part, message⟩)

/-- The log's name for the client. -/
def clientPart : String := "webql.vendor.github.client"

/-- The log's name for the test of an item's age. -/
def agePart : String := "webql.vendor.github.utils"

/-! ### The age of an item -/

/-- The value under which an item is asked for its age, where it has one. Only objects
have fields; a text or an array can be asked whether it holds the name, but no further,
and other documents cannot be asked at all. -/
def ageField (field : String) : Document → Except Kind (Option Document)
  | .object fields => .ok (Document.lookup field fields)
  | .array items =>
    if items.any (fun item => match item with
      | .string s => s = field
      | _ => false) then .error .array else .ok none
  | .string s => if isInfix field.toList s.toList then .error .string else .ok none
  | doc => .error doc.kind

/-- **Whether an item is younger** than an instant: whether the named field is a timestamp
after it. -/
def isAfter (field : String) (since : Moment) (item : Document) : Asking Bool :=
  match ageField field item with
  | .error kind => .fail (.itemKind kind)
  | .ok none => .ok false
  | .ok (some value) =>
    match Moment.ofDocument value with
    | .ok moment => .ok (since.before moment)
    | .error error => do
      log .debug agePart
        ("could not convert field " ++ field ++ " to date time: " ++ error.message)
      return false

/-! ### Pages -/

/-- A client of the interface. -/
structure Client where
  host : String
  token : String
deriving DecidableEq

/-- The seconds after which a request is given up. -/
def timeout : Nat := 30

/-- A text without the slashes at its end. -/
def dropSlashes (s : String) : String :=
  String.ofList ((s.toList.reverse.dropWhile (· = '/')).reverse)

namespace Client

/-- The client for a host. -/
def ofHost (host token : String) : Client :=
  ⟨dropSlashes host, token⟩

/-- What a client sends with every request. -/
def headers (client : Client) : List (String × String) :=
  [("Accept", "application/vnd.github.v3+json"),
    ("Authorization", "Bearer " ++ client.token),
    ("User-Agent", "webql-py")]

end Client

/-- A listing: its path, the parameters of every page and, where its items are chosen by
age, the field that tells it and the instant after which it must lie. -/
structure Listing where
  path : String
  params : List (String × String)
  after : Option (String × Moment)

namespace Client

/-- The address of a listing. -/
def endpoint (client : Client) (listing : Listing) : String :=
  client.host ++ "/" ++ listing.path

/-- The request for a page. -/
def pageRequest (client : Client) (listing : Listing) (page : Nat) : Request :=
  ⟨client.endpoint listing, listing.params ++ [("page", Decimal.natString page)], timeout, false⟩

/-- The items of a page; none where the listing ends. -/
def readPage (client : Client) (listing : Listing) (page : Nat) (reply : Reply) :
    Asking (Option (List Document)) := do
  let endpoint := client.endpoint listing
  log .debug clientPart
    ("create http request " ++ endpoint ++ " page=" ++ Decimal.natString page)
  Traced.note (.request (client.pageRequest listing page))
  match reply with
  | .unreachable reason => Traced.fail (.unreachable endpoint reason)
  | .answered status body =>
    log .debug clientPart
      ("response status code " ++ Decimal.intString status ++ " for " ++ endpoint)
    if isFailing status then return none
    else
      match Json.read body with
      | .error error => Traced.fail (.malformed endpoint error)
      | .ok (.array items) =>
        log .debug clientPart
          ("page " ++ Decimal.natString page ++ " of " ++ endpoint ++ " returned " ++
            Decimal.natString items.length ++ " items")
        return if items.isEmpty then none else some items
      | .ok _ => Traced.fail (.notArray endpoint)

/-- The items of a page that belong to the listing. -/
def keepItems (after : Option (String × Moment)) : List Document → Asking (List Document)
  | [] => .ok []
  | item :: rest => do
    let keep ← match after with
      | none => pure true
      | some (field, since) => isAfter field since item
    let kept ← keepItems after rest
    return if keep then item :: kept else kept

/-- The items of the pages from one of them on. -/
def readFrom (client : Client) (listing : Listing) (page : Nat) :
    List Reply → Asking (List Document)
  | [] => do
    let _ ← client.readPage listing page .emptyPage
    return []
  | reply :: rest => do
    match ← client.readPage listing page reply with
    | none => return []
    | some items =>
      let kept ← keepItems listing.after items
      let more ← client.readFrom listing (page + 1) rest
      return kept ++ more

/-- **The items of a listing.** -/
def read (client : Client) (api : Api) (listing : Listing) : Asking (List Document) :=
  client.readFrom listing 1 (api listing.path)

/-! ### The three listings -/

/-- The pull requests of a repository. -/
def pullRequestListing (owner repo : String) (since : Moment) : Listing :=
  ⟨"repos/" ++ owner ++ "/" ++ repo ++ "/pulls", [], some ("updated_at", since)⟩

/-- The comments on an issue; the interface itself chooses them by age. -/
def commentListing (issue : Int) (owner repo : String) (since : Moment) : Listing :=
  ⟨"repos/" ++ owner ++ "/" ++ repo ++ "/issues/" ++ Decimal.intString issue ++ "/comments",
    [("since", since.utcText)], none⟩

/-- The events of an issue. -/
def eventListing (issue : Int) (owner repo : String) (since : Moment) : Listing :=
  ⟨"repos/" ++ owner ++ "/" ++ repo ++ "/issues/" ++ Decimal.intString issue ++ "/events", [],
    some ("created_at", since)⟩

/-- The pull requests of a repository that were updated after an instant. -/
def pullRequests (client : Client) (api : Api) (owner repo : String) (since : Moment) :
    Asking (List Document) := do
  let items ← client.read api (pullRequestListing owner repo since)
  log .debug clientPart
    ("total pr " ++ Decimal.natString items.length ++ " for " ++ owner ++ "/" ++ repo)
  return items

/-- The comments on an issue that were updated after an instant. -/
def issueComments (client : Client) (api : Api) (issue : Int) (owner repo : String)
    (since : Moment) : Asking (List Document) :=
  client.read api (commentListing issue owner repo since)

/-- The events of an issue that were created after an instant. -/
def issueEvents (client : Client) (api : Api) (issue : Int) (owner repo : String)
    (since : Moment) : Asking (List Document) :=
  client.read api (eventListing issue owner repo since)

end Client

end DocumentFilter.GitHub
