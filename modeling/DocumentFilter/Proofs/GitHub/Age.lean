import DocumentFilter.Proofs.Config.Accepted
import DocumentFilter.Proofs.GitHub.Collection
import DocumentFilter.Proofs.Time.Payload

/-!
# The age of what is collected

A pull request or an issue event is collected if a field of the document that it comes from
is a text that ISO 8601 takes for an instant after a given one. Its own date is read from the
same text, but by the check on payloads. So the date of what is collected lies after that
instant because of two facts: nothing is collected whose text does not, and the two readers
agree (`DocumentFilter.Check.timestamp_string_eq_ok`) – except on decimal numbers, and there
the date can be any.

That nothing else is collected does not need that the collection is described in full. It is
shown of every computation on the way that returns, whatever the interface says.

* `DocumentFilter.GitHub.isYounger_of_isAfter`: what an item that is kept looks like;
* `DocumentFilter.GitHub.Client.date_of_mem_events`: the dates of what is collected;
* `DocumentFilter.GitHub.exists_date_before`: a decimal number, and a date that is too early.
-/

namespace DocumentFilter.GitHub

/-! ### What is kept -/

theorem isYounger_eq_true_iff {field : String} {since : Moment} {doc : Document} :
    isYounger field since doc = true ↔ ∃ text moment, doc.field? field = some (.string text) ∧
      Moment.ofText text = .ok moment ∧ since.before moment = true := by
  rw [isYounger]
  constructor
  · intro young
    split at young
    case h_1 text found =>
      split at young
      case h_1 moment read => exact ⟨text, moment, found, read, young⟩
      case h_2 => cases young
    case h_2 => cases young
  · rintro ⟨text, moment, found, read, later⟩
    rw [found]
    simp only [read, later]

/-- An item is kept for a field that it has. -/
theorem isYounger_of_isAfter {field : String} {since : Moment} {item : Document}
    (kept : (isAfter field since item).outcome = .ok true) :
    isYounger field since item = true := by
  by_cases unaskable : Unaskable field item
  · rw [outcome_isAfter_of_unaskable unaskable] at kept
    cases kept
  · rw [(ends_isAfter unaskable since).outcome_some, Except.ok.injEq] at kept
    exact kept

theorem isYounger_of_mem_keepItems {field : String} {since : Moment} {items kept : List Document}
    (returns : (Client.keepItems (some (field, since)) items).outcome = .ok kept) :
    ∀ doc ∈ kept, isYounger field since doc = true := by
  induction items generalizing kept with
  | nil =>
    cases returns
    simp
  | cons item rest ih =>
    rw [Client.keepItems] at returns
    obtain ⟨keep, asked, returns⟩ := Traced.outcome_bind_eq_ok.1 returns
    obtain ⟨others, following, returns⟩ := Traced.outcome_bind_eq_ok.1 returns
    cases returns
    cases keep with
    | false => exact ih following
    | true => exact List.forall_mem_cons.2 ⟨isYounger_of_isAfter asked, ih following⟩

namespace Client

variable {client : Client}

/-- The induction is on the replies; what a page holds is looked at in one step. -/
theorem isYounger_of_mem_readFrom {listing : Listing} {field : String} {since : Moment}
    (after : listing.after = some (field, since)) {replies : List Reply} {page : Nat}
    {docs : List Document}
    (returns : (client.readFrom listing page replies).outcome = .ok docs) :
    ∀ doc ∈ docs, isYounger field since doc = true := by
  induction replies generalizing page docs with
  | nil =>
    rw [readFrom] at returns
    obtain ⟨_, -, returns⟩ := Traced.outcome_bind_eq_ok.1 returns
    cases returns
    simp
  | cons reply rest ih =>
    rw [readFrom] at returns
    obtain ⟨items, -, returns⟩ := Traced.outcome_bind_eq_ok.1 returns
    cases items with
    | none =>
      cases returns
      simp
    | some items =>
      obtain ⟨kept, keeping, returns⟩ := Traced.outcome_bind_eq_ok.1 returns
      obtain ⟨more, following, returns⟩ := Traced.outcome_bind_eq_ok.1 returns
      cases returns
      rw [after] at keeping
      intro doc mem
      rcases List.mem_append.1 mem with mem | mem
      · exact isYounger_of_mem_keepItems keeping doc mem
      · exact ih following doc mem

theorem isYounger_of_mem_pullRequests {api : Api} {owner repo : String} {since : Moment}
    {docs : List Document}
    (returns : (client.pullRequests api owner repo since).outcome = .ok docs) :
    ∀ doc ∈ docs, isYounger "updated_at" since doc = true := by
  obtain ⟨items, listed, returns⟩ := Traced.outcome_bind_eq_ok.1 returns
  obtain ⟨_, -, returns⟩ := Traced.outcome_bind_eq_ok.1 returns
  cases returns
  exact isYounger_of_mem_readFrom rfl listed

end Client

/-! ### The date of a payload -/

theorem entry?_ofFields (name : String) (fields : List (String × Document)) :
    Value.entry? name (Value.ofFields fields) =
      (Document.lookup name fields).map Value.ofDocument := by
  induction fields with
  | nil => rfl
  | cons field rest ih =>
    obtain ⟨key, value⟩ := field
    rw [Value.ofFields, Value.ofField, Value.entry?, Document.lookup]
    split
    · rfl
    · exact ih

/-- The field for the date is a text, so the date is what the check takes the text for. -/
theorem date_of_timestampField {name text : String} {fields : List (String × Document)}
    {date : Option Timestamp} (found : Document.lookup name fields = some (.string text))
    (read : timestampField name (Value.ofFields fields) = .ok date) :
    ∃ t, date = some t ∧ Check.timestamp (.string text) = .ok t := by
  rw [timestampField, Check.fieldOr, entry?_ofFields, found] at read
  change Checked.under _ ((Check.timestamp (.string text)).map some) = _ at read
  cases checked : Check.timestamp (.string text) with
  | error faults =>
    rw [checked] at read
    cases read
  | ok t =>
    rw [checked] at read
    cases read
    exact ⟨t, rfl, rfl⟩

/-- What a check on a mapping reads of a document that has fields. -/
theorem fields_of_field? {doc value : Document} {name : String}
    (found : doc.field? name = some value) :
    ∃ fields, doc = .object fields ∧ Document.lookup name fields = some value := by
  cases doc with
  | object fields => exact ⟨fields, rfl, found⟩
  | _ => cases found

theorem PullRequest.date_of_ofDocument {doc : Document} {pullRequest : PullRequest} {text : String}
    (found : doc.field? "updated_at" = some (.string text))
    (valid : PullRequest.ofDocument doc = .ok pullRequest) :
    ∃ t, pullRequest.updatedAt = some t ∧ Check.timestamp (.string text) = .ok t := by
  obtain ⟨fields, rfl, found⟩ := fields_of_field? found
  rw [ofDocument] at valid
  obtain ⟨entries, mapping, valid⟩ := Except.bind_eq_ok.1 valid
  cases mapping
  obtain ⟨⟨number, htmlUrl, title, body, login, updatedAt⟩, read, same⟩ :=
    Except.bind_eq_ok.1 valid
  cases same
  simp only [Checked.both_eq_ok_iff] at read
  exact date_of_timestampField found read.2.2.2.2.2

theorem IssueEvent.date_of_ofDocument {doc : Document} {event : IssueEvent} {text : String}
    (found : doc.field? "created_at" = some (.string text))
    (valid : IssueEvent.ofDocument doc = .ok event) :
    ∃ t, event.createdAt = some t ∧ Check.timestamp (.string text) = .ok t := by
  obtain ⟨fields, rfl, found⟩ := fields_of_field? found
  rw [ofDocument] at valid
  obtain ⟨entries, mapping, valid⟩ := Except.bind_eq_ok.1 valid
  cases mapping
  obtain ⟨⟨id, name, createdAt⟩, read, same⟩ := Except.bind_eq_ok.1 valid
  cases same
  simp only [Checked.both_eq_ok_iff] at read
  exact date_of_timestampField found read.2.2

/-! ### Events -/

/-- The field that tells the age of what an event is read from. Comments are chosen by the
interface, which is told the instant. -/
def EventKind.ageField? : EventKind → Option String
  | .pullRequest => some "updated_at"
  | .issueEvent => some "created_at"
  | .comment => none

/-- **An event after an instant**: the field that tells its age is a text that ISO 8601 takes for
a later one, and this is its date – or else the text is a decimal number, and its date is the
Unix time that the number denotes. -/
def Event.IsAfter (since : Moment) (event : Event) : Prop :=
  ∀ field, event.kind.ageField? = some field →
    ∃ text moment date, event.raw.field? field = some (.string text) ∧
      Moment.ofText text = .ok moment ∧ since.before moment = true ∧
      event.date = some date ∧
      (date.instant? = some moment ∨
        Check.IsUnsignedDecimal text.toList ∧ Check.unixText? text.toList = some date)

/-- What is young, and gets the date that the check reads, is after the instant. -/
theorem Event.isAfter_of_isYounger {since : Moment} {event : Event} {field : String}
    (kind : event.kind.ageField? = some field)
    (young : isYounger field since event.raw = true)
    (dated : ∀ text, event.raw.field? field = some (.string text) →
      ∃ t, event.date = some t ∧ Check.timestamp (.string text) = .ok t) :
    event.IsAfter since := by
  intro field' kind'
  obtain rfl : field = field' := Option.some.inj (kind.symm.trans kind')
  obtain ⟨text, moment, found, read, later⟩ := isYounger_eq_true_iff.1 young
  obtain ⟨date, dated, checked⟩ := dated text found
  refine ⟨text, moment, date, found, read, later, dated, ?_⟩
  rw [Moment.ofText] at read
  cases written : Timestamp.ofText text with
  | error error =>
    rw [written] at read
    cases read
  | ok iso =>
    simp only [written] at read
    -- the readers agree on the text, or it is a decimal number to one of them
    rcases Check.timestamp_string_eq_ok checked written with rfl | number
    · left
      split at read
      case h_1 instant => rw [instant, ← Except.ok.inj read]
      case h_2 => cases read
    · exact .inr number

theorem expect_eq_ok {α : Type} {title : String} {checked : Checked α} {a : α}
    (h : (expect title checked).outcome = .ok a) : checked = .ok a := by
  cases checked with
  | ok b =>
    cases h
    rfl
  | error faults => cases h

theorem exists_of_mem_eachDocument {α : Type} {f : Document → Asking α} {docs : List Document}
    {as : List α} (returns : (eachDocument f docs).outcome = .ok as) :
    ∀ a ∈ as, ∃ doc ∈ docs, (f doc).outcome = .ok a := by
  induction docs generalizing as with
  | nil =>
    cases returns
    simp
  | cons doc rest ih =>
    obtain ⟨a, first, returns⟩ := Traced.outcome_bind_eq_ok.1 returns
    obtain ⟨others, following, returns⟩ := Traced.outcome_bind_eq_ok.1 returns
    cases returns
    refine List.forall_mem_cons.2 ⟨⟨doc, List.mem_cons_self .., first⟩, fun b mem => ?_⟩
    obtain ⟨other, other_mem, made⟩ := ih following b mem
    exact ⟨other, List.mem_cons_of_mem _ other_mem, made⟩

namespace Client

variable {client : Client} {api : Api} {since : Moment}

theorem isAfter_of_mem_pullRequestEvents {query : PullRequestQuery} {doc : Document}
    (young : isYounger "updated_at" since doc = true) {events : List Event}
    (returns : (client.pullRequestEvents api query since doc).outcome = .ok events) :
    ∀ event ∈ events, event.IsAfter since := by
  obtain ⟨pullRequest, valid, returns⟩ := Traced.outcome_bind_eq_ok.1 returns
  obtain ⟨matched, -, returns⟩ := Traced.outcome_bind_eq_ok.1 returns
  cases matched with
  | false =>
    cases returns
    simp
  | true =>
    obtain ⟨comments, -, returns⟩ := Traced.outcome_bind_eq_ok.1 returns
    obtain ⟨commentEvents, ofComments, returns⟩ := Traced.outcome_bind_eq_ok.1 returns
    obtain ⟨items, listed, returns⟩ := Traced.outcome_bind_eq_ok.1 returns
    obtain ⟨issueEvents, ofItems, returns⟩ := Traced.outcome_bind_eq_ok.1 returns
    cases returns
    intro event mem
    rcases List.mem_append.1 mem with mem | mem
    · rcases List.mem_append.1 mem with mem | mem
      · obtain ⟨item, -, made⟩ := exists_of_mem_eachDocument ofComments event mem
        obtain ⟨comment, -, same⟩ := Traced.outcome_bind_eq_ok.1 made
        cases same
        -- nothing is said about the age of a comment
        exact fun field none => nomatch none
      · obtain ⟨item, item_mem, made⟩ := exists_of_mem_eachDocument ofItems event mem
        obtain ⟨payload, read, same⟩ := Traced.outcome_bind_eq_ok.1 made
        cases same
        exact Event.isAfter_of_isYounger rfl (isYounger_of_mem_readFrom rfl listed item item_mem)
          fun text found => IssueEvent.date_of_ofDocument found (expect_eq_ok read)
    · rw [List.mem_singleton.1 mem]
      exact Event.isAfter_of_isYounger rfl young fun text found =>
        PullRequest.date_of_ofDocument found (expect_eq_ok valid)

theorem isAfter_of_mem_queryEvents {query : PullRequestQuery} {events : List Event}
    (returns : (client.queryEvents api query since).outcome = .ok events) :
    ∀ event ∈ events, event.IsAfter since := by
  obtain ⟨docs, listed, returns⟩ := Traced.outcome_bind_eq_ok.1 returns
  obtain ⟨parts, made, returns⟩ := Traced.outcome_bind_eq_ok.1 returns
  cases returns
  intro event mem
  obtain ⟨part, part_mem, mem⟩ := List.mem_flatten.1 mem
  obtain ⟨doc, doc_mem, returns⟩ := exists_of_mem_eachDocument made part part_mem
  exact isAfter_of_mem_pullRequestEvents (isYounger_of_mem_pullRequests listed doc doc_mem)
    returns event mem

/-- A repository that fails adds no event. -/
theorem isAfter_of_mem_eventsSince {queries : List PullRequestQuery} {events : List Event}
    (returns : (client.eventsSince api since queries).outcome = .ok events) :
    ∀ event ∈ events, event.IsAfter since := by
  induction queries generalizing events with
  | nil =>
    cases returns
    simp
  | cons query rest ih =>
    rw [eventsSince] at returns
    obtain ⟨attempt, tried, returns⟩ := Traced.outcome_bind_eq_ok.1 returns
    cases attempt with
    | ok first =>
      obtain ⟨more, following, returns⟩ := Traced.outcome_bind_eq_ok.1 returns
      cases returns
      intro event mem
      rcases List.mem_append.1 mem with mem | mem
      · exact isAfter_of_mem_queryEvents (Except.ok.inj tried) event mem
      · exact ih following event mem
    | error error =>
      by_cases skipped : error.isSkipped
      · simp only [skipped, if_true] at returns
        obtain ⟨_, -, returns⟩ := Traced.outcome_bind_eq_ok.1 returns
        exact ih returns
      · simp only [skipped] at returns
        cases returns

/-- **The dates of what is collected.** Where the collection returns, the instant from which on
it looks is in range, and every pull request and every issue event that it yields has a date.
That date lies after the instant, unless the text that it is read from is a decimal number. -/
theorem date_of_mem_events {config : Config} {now : Moment} {minutes : Int} {events : List Event}
    (returns : (client.events api config now minutes).outcome = .ok events) :
    ∃ since, now.shift? (-(minutes * 60000000)) = some since ∧
      ∀ event ∈ events, event.IsAfter since := by
  obtain ⟨since, found, returns⟩ := Traced.outcome_bind_eq_ok.1 returns
  refine ⟨since, ?_, isAfter_of_mem_eventsSince returns⟩
  rw [minutesBefore] at found
  split at found
  case h_1 same => rw [same, Except.ok.inj found]
  case h_2 => cases found

/-! ### A single pull request -/

/-- A listing without pages has no items. -/
theorem outcome_read_nil {listing : Listing} (none : api listing.path = []) :
    (client.read api listing).outcome = .ok [] := by
  have nothing : ∀ item ∈ fullItems [], ¬listing.Refuses item := by simp [fullItems, fullPages]
  rw [Client.read, none]
  exact (client.ends_readFrom listing nothing 1).outcome_some

section Single

variable {query : PullRequestQuery} {doc : Document} {pullRequest : PullRequest}

/-- A page with one young item is all that is listed. -/
theorem outcome_pullRequests_single {page : Reply}
    (listed : api (query.listing since).path = [page]) (read : page.items? = some [doc])
    (young : isYounger "updated_at" since doc = true) :
    (client.pullRequests api query.owner query.repo since).outcome = .ok [doc] := by
  have object : doc.isObject = true := by
    obtain ⟨text, moment, found, -⟩ := isYounger_eq_true_iff.1 young
    obtain ⟨fields, rfl, -⟩ := fields_of_field? found
    rfl
  have full : page.isFull = true := by rw [Reply.isFull, read]
  have askable : ∀ item ∈ fullItems [page], ¬(query.listing since).Refuses item := by
    have listed : fullItems [page] = [doc] := fullItems_of_isFull read full []
    rw [listed, List.forall_mem_singleton]
    exact Listing.not_refuses_of_isObject object
  have items : itemsFrom (query.listing since) [page] = some [doc] := by
    have keeps : (query.listing since).keeps doc = true := young
    have nothing : itemsFrom (query.listing since) [] = some [] := rfl
    rw [itemsFrom_of_isFull _ read full, nothing, Option.map_some, List.append_nil,
      List.filter_singleton, keeps]
    rfl
  have ends := client.ends_readFrom (query.listing since) askable 1
  rw [items, ← listed] at ends
  exact (client.ends_pullRequests ends).outcome_some

/-- A pull request that has no comments and no issue events yields itself. -/
theorem outcome_pullRequestEvents_bare (unfiltered : query.filters = [])
    (valid : PullRequest.ofDocument doc = .ok pullRequest)
    (comments : api (query.comments since pullRequest).path = [])
    (issueEvents : api (query.issueEvents since pullRequest).path = []) :
    (client.pullRequestEvents api query since doc).outcome =
      .ok [pullRequestEvent pullRequest query.priority doc] := by
  have selected : (matchesFilters doc query.filters).outcome = .ok true := by
    rw [unfiltered]
    rfl
  have noComments : (client.issueComments api pullRequest.number query.owner query.repo
    since).outcome = .ok [] := outcome_read_nil comments
  have noEvents : (client.issueEvents api pullRequest.number query.owner query.repo
    since).outcome = .ok [] := outcome_read_nil issueEvents
  simp only [pullRequestEvents, Traced.outcome_bind_eq_ok]
  refine ⟨pullRequest, by rw [expect, valid]; rfl, true, selected, ?_⟩
  simp only [if_true, Traced.outcome_bind_eq_ok]
  exact ⟨[], noComments, [], rfl, [], noEvents, [], rfl, rfl⟩

/-- A repository with a single pull request, to which nothing else belongs, yields this one. -/
theorem outcome_events_single (client : Client) (config : Config)
    (queries : config.queries = [query]) (unfiltered : query.filters = []) {now : Moment}
    {minutes : Int} (range : now.shift? (-(minutes * 60000000)) = some since) {page : Reply}
    (listed : api (query.listing since).path = [page]) (read : page.items? = some [doc])
    (young : isYounger "updated_at" since doc = true)
    (valid : PullRequest.ofDocument doc = .ok pullRequest)
    (comments : api (query.comments since pullRequest).path = [])
    (issueEvents : api (query.issueEvents since pullRequest).path = []) :
    (client.events api config now minutes).outcome =
      .ok [pullRequestEvent pullRequest query.priority doc] := by
  have docs : (client.pullRequests api query.owner query.repo since).outcome = .ok [doc] :=
    outcome_pullRequests_single listed read young
  have events : (client.pullRequestEvents api query since doc).outcome =
      .ok [pullRequestEvent pullRequest query.priority doc] :=
    outcome_pullRequestEvents_bare unfiltered valid comments issueEvents
  have collected : (client.queryEvents api query since).outcome =
      .ok [pullRequestEvent pullRequest query.priority doc] := by
    simp only [queryEvents, Traced.outcome_bind_eq_ok]
    refine ⟨[doc], docs, [[pullRequestEvent pullRequest query.priority doc]], ?_, rfl⟩
    simp only [eachDocument, Traced.outcome_bind_eq_ok]
    exact ⟨_, events, [], rfl, rfl⟩
  rw [client.events_of_shift? range, queries, eventsSince]
  refine Traced.outcome_bind_eq_ok.2 ⟨_, congrArg Except.ok collected, ?_⟩
  exact Traced.outcome_bind_eq_ok.2 ⟨[], rfl, rfl⟩

end Single

end Client

/-- A pull request that was updated on the day after. -/
theorem date_of_mem_events_single :
    let client : Client := .ofHost "https://api.github.com/" "token"
    let page : Reply := .answered 200 ("[\x7b\"number\":1,\"html_url\":\"\",\"title\":\"\"," ++
      "\"user\":\x7b\"login\":\"\"\x7d,\"updated_at\":\"2022-10-02\"\x7d]")
    let api : Api := fun path => if path = "repos/o/r/pulls" then [page] else []
    let config : Config := ⟨⟨some [⟨"o", "r", 0, []⟩]⟩⟩
    let now : Moment := ⟨738429 * Clock.dayMicros, by decide⟩
    ∃ events, (client.events api config now 1440).outcome = .ok events ∧ events ≠ [] ∧
      ∃ since, now.shift? (-(1440 * 60000000)) = some since ∧
        ∀ event ∈ events, event.IsAfter since := by
  intro client page api config now
  have read : page.items? = some [.object [("number", .number (.int 1)),
      ("html_url", .string ""), ("title", .string ""),
      ("user", .object [("login", .string "")]), ("updated_at", .string "2022-10-02")]] := by
    cbv
  have range : now.shift? (-(1440 * 60000000)) = some ⟨738428 * Clock.dayMicros, by decide⟩ := by
    decide
  have pulls : api "repos/o/r/pulls" = [page] := if_pos rfl
  have others : ∀ path ≠ "repos/o/r/pulls", api path = [] := fun path differs => if_neg differs
  have returns := client.outcome_events_single config rfl rfl range pulls read (by decide) rfl
    (others _ (by decide)) (others _ (by decide))
  exact ⟨_, returns, List.cons_ne_nil _ _, Client.date_of_mem_events returns⟩

/-- **A date that is too early.** ISO 8601 takes `20221002` for a day, which is after the instant
from which on pull requests are collected. The payload takes it for the seconds of Unix time,
and its date is in the year 1970. -/
theorem exists_date_before :
    let client : Client := .ofHost "https://api.github.com/" "token"
    let page : Reply := .answered 200 ("[\x7b\"number\":1,\"html_url\":\"\",\"title\":\"\"," ++
      "\"user\":\x7b\"login\":\"\"\x7d,\"updated_at\":\"20221002\"\x7d]")
    let api : Api := fun path => if path = "repos/o/r/pulls" then [page] else []
    let config : Config := ⟨⟨some [⟨"o", "r", 0, []⟩]⟩⟩
    let now : Moment := ⟨738429 * Clock.dayMicros, by decide⟩
    ∃ since events, now.shift? (-(1440 * 60000000)) = some since ∧
      (client.events api config now 1440).outcome = .ok events ∧
      ∃ event ∈ events, event.kind = .pullRequest ∧
        ∃ date moment, event.date = some date ∧ date.instant? = some moment ∧
          moment.before since = true := by
  intro client page api config now
  have read : page.items? = some [.object [("number", .number (.int 1)),
      ("html_url", .string ""), ("title", .string ""),
      ("user", .object [("login", .string "")]), ("updated_at", .string "20221002")]] := by
    cbv
  have range : now.shift? (-(1440 * 60000000)) = some ⟨738428 * Clock.dayMicros, by decide⟩ := by
    decide
  have pulls : api "repos/o/r/pulls" = [page] := if_pos rfl
  have others : ∀ path ≠ "repos/o/r/pulls", api path = [] := fun path differs => if_neg differs
  have returns := client.outcome_events_single config rfl rfl range pulls read (by decide) rfl
    (others _ (by decide)) (others _ (by decide))
  let early : Moment := ⟨62155817802000000, by decide⟩
  exact ⟨_, _, range, returns, _, List.mem_singleton_self _, rfl, ⟨early, some 0⟩, early, rfl,
    by decide, by decide⟩

end DocumentFilter.GitHub
