import DocumentFilter.Proofs.Filter.Conjunction
import DocumentFilter.Proofs.GitHub.Listing
import Mathlib.Data.List.Forall2

/-!
# What a configuration yields

The events of a configuration are put together repository by repository. What a repository
contributes is described here without a run: it **fails** if anything that belongs to it is
amiss – its listing, a pull request, a filter, the comments or the events of a pull request
that is selected – and then all it contributes is a warning; else it contributes, for each of
its pull requests that are selected, the events of the comments, those of the issue events
and the pull request itself.

The description names no order in which things are looked at, so it does not say what is
found amiss first, nor how much was done before. That the collector agrees with it is a
statement about every placement of failures. Its proof goes upwards: for an item, for the
items of a listing, for a pull request, for a repository, each time in the two cases that
something fails and that nothing does.

All of it is said of repositories in which no listing is come to that cannot be gone through. Here
the order does count: whether the issue events of a pull request are come to is decided by what is
looked at before them.

* `DocumentFilter.GitHub.PullRequestQuery.Fails`,
  `DocumentFilter.GitHub.PullRequestQuery.Yields`: the description;
* `DocumentFilter.GitHub.PullRequestQuery.StuckAt`: what is left out;
* `DocumentFilter.GitHub.Client.ends_queryEvents_none`,
  `DocumentFilter.GitHub.Client.ends_queryEvents`: one repository;
* `DocumentFilter.GitHub.Client.events_contributions`: a whole configuration.
-/

namespace DocumentFilter.GitHub

/-! ### The description -/

/-- The event of a comment on a pull request. -/
def IsCommentEvent (parent priority : Int) (doc : Document) (event : Event) : Prop :=
  ∃ comment, IssueComment.ofDocument doc = .ok comment ∧ event = {
    kind := .comment
    id := Decimal.intString comment.id
    parent := some (Decimal.intString parent)
    name := comment.body
    link := some comment.htmlUrl
    date := comment.updatedAt
    priority := priority
    raw := doc }

/-- The event of an issue event of a pull request. -/
def IsIssueEvent (parent priority : Int) (doc : Document) (event : Event) : Prop :=
  ∃ issueEvent, IssueEvent.ofDocument doc = .ok issueEvent ∧ event = {
    kind := .issueEvent
    id := Decimal.intString issueEvent.id
    parent := some (Decimal.intString parent)
    name := issueEvent.event
    link := none
    date := issueEvent.createdAt
    priority := priority
    raw := doc }

/-- The event of a pull request itself, which has no other event above it. -/
def IsPullRequestEvent (pullRequest : PullRequest) (priority : Int) (doc : Document)
    (event : Event) : Prop :=
  event = {
    kind := .pullRequest
    id := Decimal.intString pullRequest.number
    parent := none
    name := pullRequest.title
    link := some pullRequest.htmlUrl
    date := pullRequest.updatedAt
    priority := priority
    raw := doc }

namespace PullRequestQuery

variable (query : PullRequestQuery) (client : Client) (api : Api) (since : Moment)

/-- The pull requests of the repository. -/
def listing : Listing :=
  Client.pullRequestListing query.owner query.repo since

/-- The comments on a pull request. -/
def comments (pullRequest : PullRequest) : Listing :=
  Client.commentListing pullRequest.number query.owner query.repo since

/-- The issue events of a pull request. -/
def issueEvents (pullRequest : PullRequest) : Listing :=
  Client.eventListing pullRequest.number query.owner query.repo since

/-- A pull request that matches all filters. -/
def Selects (doc : Document) : Prop :=
  ∀ filter ∈ query.filters, filter.MatchesOn doc

/-- **What can be amiss with a pull request**: its payload, a filter or, if it is selected,
its comments and issue events. -/
inductive FailsOn (doc : Document) : Prop
  | payload {faults : List Fault} (invalid : PullRequest.ofDocument doc = .error faults)
  | filter {filter : Filter} (mem : filter ∈ query.filters) (malformed : ¬filter.WellFormed)
  | comments {pullRequest : PullRequest} (valid : PullRequest.ofDocument doc = .ok pullRequest)
      (selected : query.Selects doc)
      (amiss : (query.comments since pullRequest).Broken api ∨
        ∃ item ∈ (query.comments since pullRequest).items api,
          ∃ faults, IssueComment.ofDocument item = .error faults)
  | issueEvents {pullRequest : PullRequest} (valid : PullRequest.ofDocument doc = .ok pullRequest)
      (selected : query.Selects doc)
      (amiss : (query.issueEvents since pullRequest).Broken api ∨
        ∃ item ∈ (query.issueEvents since pullRequest).items api,
          ∃ faults, IssueEvent.ofDocument item = .error faults)

/-- **What a pull request yields** where nothing is amiss, and the requests that are made for
it: nothing unless it is selected, and else its comments, its issue events and itself. -/
inductive YieldsOn (doc : Document) : List Event → List Request → Prop
  | passed {pullRequest : PullRequest} (valid : PullRequest.ofDocument doc = .ok pullRequest)
      (wellFormed : ∀ filter ∈ query.filters, filter.WellFormed)
      (unselected : ¬query.Selects doc) : YieldsOn doc [] []
  | selected {pullRequest : PullRequest} (valid : PullRequest.ofDocument doc = .ok pullRequest)
      (selected : query.Selects doc) {comments issueEvents : List Event}
      (commentsWhole : ¬(query.comments since pullRequest).Broken api)
      (ofComments : List.Forall₂ (IsCommentEvent pullRequest.number query.priority)
        ((query.comments since pullRequest).items api) comments)
      (issueEventsWhole : ¬(query.issueEvents since pullRequest).Broken api)
      (ofIssueEvents : List.Forall₂ (IsIssueEvent pullRequest.number query.priority)
        ((query.issueEvents since pullRequest).items api) issueEvents)
      {itself : Event} (ofItself : IsPullRequestEvent pullRequest query.priority doc itself) :
      YieldsOn doc (comments ++ issueEvents ++ [itself])
        ((query.comments since pullRequest).requests client api ++
          (query.issueEvents since pullRequest).requests client api)

/-- **A repository fails** if its listing is broken or anything is amiss with one of its pull
requests. -/
def Fails : Prop :=
  (query.listing since).Broken api ∨
    ∃ doc ∈ (query.listing since).items api, query.FailsOn api since doc

/-- **What a repository yields** where nothing is amiss, and the requests that are made for
it: what its pull requests yield, in the order of their listing. -/
def Yields (events : List Event) (made : List Request) : Prop :=
  ¬(query.listing since).Broken api ∧ ∃ parts : List (List Event × List Request),
    List.Forall₂ (fun doc part => query.YieldsOn client api since doc part.1 part.2)
      ((query.listing since).items api) parts ∧
    events = parts.flatMap Prod.fst ∧
    made = (query.listing since).requests client api ++ parts.flatMap Prod.snd

/-- **A repository that can be gone through**: its listing, and the issue events of each of its
pull requests that is selected. Comments are not asked for their age. -/
structure Askable : Prop where
  listing : (query.listing since).Askable api
  issueEvents : ∀ doc ∈ (query.listing since).items api, ∀ pullRequest,
    PullRequest.ofDocument doc = .ok pullRequest → query.Selects doc →
      (query.issueEvents since pullRequest).Askable api

/-- **The listing at which a pull request gets stuck**: its issue events, if they are come to and
cannot be gone through. They are come to if it is selected and its comments are in order. -/
inductive StuckOn (doc : Document) : Listing → Prop
  | intro {pullRequest : PullRequest} (valid : PullRequest.ofDocument doc = .ok pullRequest)
      (selected : query.Selects doc) {comments : List Event}
      (whole : ¬(query.comments since pullRequest).Broken api)
      (commented : List.Forall₂ (IsCommentEvent pullRequest.number query.priority)
        ((query.comments since pullRequest).items api) comments)
      (refused : ¬(query.issueEvents since pullRequest).Askable api) :
      StuckOn doc (query.issueEvents since pullRequest)

/-- The same of several pull requests. One is come to if nothing is amiss with those before it. -/
inductive StuckAmong : List Document → Listing → Prop
  | here {doc : Document} {rest : List Document} {stop : Listing}
      (stuck : query.StuckOn api since doc stop) : StuckAmong (doc :: rest) stop
  | behind {doc : Document} {rest : List Document} {stop : Listing}
      (whole : ¬query.FailsOn api since doc) (free : ∀ other, ¬query.StuckOn api since doc other)
      (later : StuckAmong rest stop) : StuckAmong (doc :: rest) stop

/-- **The listing at which a repository gets stuck**: its own, if that cannot be gone through, or
the issue events of one of its pull requests. -/
inductive StuckAt : Listing → Prop
  | listing (refused : ¬(query.listing since).Askable api) : StuckAt (query.listing since)
  | issueEvents {stop : Listing} (askable : (query.listing since).Askable api)
      (whole : ¬(query.listing since).Broken api)
      (stuck : query.StuckAmong api since ((query.listing since).items api) stop) : StuckAt stop

/-- The warning for a repository that fails. -/
def warning (reason : String) : LogRecord :=
  ⟨.warning, sourcePart, "skipping " ++ query.owner ++ "/" ++ query.repo ++ ": " ++ reason⟩

/-- **What a repository contributes** to events and warnings. -/
inductive Contributes : List Event → List LogRecord → Prop
  | skipped (fails : query.Fails api since) (reason : String) :
      Contributes [] [query.warning reason]
  | collected (whole : ¬query.Fails api since) {events : List Event}
      (yields : query.Yields client api since events
        (requests (client.queryEvents api query since).notes)) :
      Contributes events []

end PullRequestQuery

/-- An interface that lists nothing but objects as pull requests and as issue events. -/
structure Api.ListsObjects (api : Api) : Prop where
  pullRequests : ∀ owner repo since,
    (Client.pullRequestListing owner repo since).HasObjects api
  issueEvents : ∀ issue owner repo since,
    (Client.eventListing issue owner repo since).HasObjects api

theorem Api.ListsObjects.askable {api : Api} (objects : api.ListsObjects)
    (query : PullRequestQuery) (since : Moment) : query.Askable api since where
  listing := (objects.pullRequests _ _ _).askable
  issueEvents _ _ _ _ _ := (objects.issueEvents _ _ _ _).askable

namespace PullRequestQuery

variable {query : PullRequestQuery} {client : Client} {api : Api} {since : Moment}

theorem StuckAmong.exists_mem {docs : List Document} {stop : Listing}
    (stuck : query.StuckAmong api since docs stop) :
    ∃ doc ∈ docs, query.StuckOn api since doc stop := by
  induction stuck with
  | here stuck => exact ⟨_, List.mem_cons_self .., stuck⟩
  | behind whole free later ih =>
    obtain ⟨doc, mem, stuck⟩ := ih
    exact ⟨doc, List.mem_cons_of_mem _ mem, stuck⟩

/-- What can be gone through does not get stuck. -/
theorem Askable.free (askable : query.Askable api since) (stop : Listing) :
    ¬query.StuckAt api since stop := by
  rintro (refused | ⟨-, -, stuck⟩)
  · exact refused askable.listing
  · obtain ⟨doc, mem, valid, selected, -, -, refused⟩ := stuck.exists_mem
    exact refused (askable.issueEvents doc mem _ valid selected)

end PullRequestQuery

/-! ### Items -/

section Items

variable {α : Type}

theorem ends_expect_ok {title : String} {checked : Checked α} {a : α} (valid : checked = .ok a) :
    Ends (expect title checked) (some a) [] := by
  rw [valid]
  exact ⟨.inl ⟨a, rfl, rfl⟩, rfl, rfl⟩

theorem ends_expect_error {title : String} {checked : Checked α} {faults : List Fault}
    (invalid : checked = .error faults) : Ends (expect title checked) none [] := by
  rw [invalid]
  exact ⟨.inr ⟨rfl, _, rfl, rfl⟩, rfl, rfl⟩

/-- One document that fails is enough, whatever comes before it and after. -/
theorem ends_eachDocument_none {f : Document → Asking α} {docs : List Document}
    (ends : ∀ doc ∈ docs, ∃ result made, Ends (f doc) result made)
    (fails : ∃ doc ∈ docs, ∃ made, Ends (f doc) none made) :
    ∃ made, Ends (eachDocument f docs) none made := by
  induction docs with
  | nil => simp at fails
  | cons doc rest ih =>
    obtain ⟨⟨result, made, first⟩, others⟩ := List.forall_mem_cons.1 ends
    rw [List.exists_mem_cons_iff] at fails
    cases result with
    | none => exact ⟨made, first.bind_none⟩
    | some a =>
      -- it has a result, so it is not the document that fails
      rcases fails with ⟨made', failed⟩ | fails
      · obtain ⟨error, outcome, -⟩ := failed.outcome_none
        rw [first.outcome_some] at outcome
        cases outcome
      · obtain ⟨more, next⟩ := ih others fails
        exact ⟨made ++ more, first.bind (next.map _)⟩

end Items

/-- Documents that are dealt with without a request. -/
theorem ends_eachDocument_silent {α : Type} {f : Document → Asking α} {docs : List Document}
    {as : List α} (ends : List.Forall₂ (fun doc a => Ends (f doc) (some a) []) docs as) :
    Ends (eachDocument f docs) (some as) [] := by
  induction ends with
  | nil => exact .pure []
  | cons first _ ih => exact first.bind (ih.map _)

/-- A way to deal with documents that is described: by what is made of a document, and by
which documents are invalid. -/
structure Makes {α : Type} (make : Document → Asking α) (IsMade : Document → α → Prop)
    (Invalid : Document → Prop) : Prop where
  ends : ∀ {doc a}, IsMade doc a → Ends (make doc) (some a) []
  ends_none : ∀ {doc}, Invalid doc → Ends (make doc) none []
  total : ∀ doc, (∃ a, IsMade doc a) ∨ Invalid doc

/-- What something is made of is not invalid. -/
theorem Makes.not_invalid {α : Type} {make : Document → Asking α} {IsMade : Document → α → Prop}
    {Invalid : Document → Prop} (makes : Makes make IsMade Invalid) {docs : List Document}
    {as : List α} (made : List.Forall₂ IsMade docs as) {doc : Document} (mem : doc ∈ docs) :
    ¬Invalid doc := by
  intro invalid
  induction made with
  | nil => cases mem
  | @cons other a _ _ first _ ih =>
    rcases List.mem_cons.1 mem with rfl | mem
    · obtain ⟨error, failed, -⟩ := (makes.ends_none invalid).outcome_none
      rw [(makes.ends first).outcome_some] at failed
      cases failed
    · exact ih mem

theorem makes_commentEvent (parent priority : Int) :
    Makes (commentEvent parent priority) (IsCommentEvent parent priority)
      fun doc => ∃ faults, IssueComment.ofDocument doc = .error faults where
  ends := by
    rintro doc event ⟨comment, valid, rfl⟩
    exact (ends_expect_ok valid).map _
  ends_none := by
    rintro doc ⟨faults, invalid⟩
    exact (ends_expect_error invalid).bind_none
  total doc := by
    cases read : IssueComment.ofDocument doc with
    | ok comment => exact .inl ⟨_, comment, read, rfl⟩
    | error faults => exact .inr ⟨faults, rfl⟩

theorem makes_issueEvent (parent priority : Int) :
    Makes (issueEvent parent priority) (IsIssueEvent parent priority)
      fun doc => ∃ faults, IssueEvent.ofDocument doc = .error faults where
  ends := by
    rintro doc event ⟨issueEvent, valid, rfl⟩
    exact (ends_expect_ok valid).map _
  ends_none := by
    rintro doc ⟨faults, invalid⟩
    exact (ends_expect_error invalid).bind_none
  total doc := by
    cases read : IssueEvent.ofDocument doc with
    | ok issueEvent => exact .inl ⟨_, issueEvent, read, rfl⟩
    | error faults => exact .inr ⟨faults, rfl⟩

/-! ### Filters -/

/-- Matching makes no requests and notes nothing but for debugging. -/
theorem silent_matchesFilters (doc : Document) (filters : List Filter) :
    requests (matchesFilters doc filters).notes = [] ∧
      warnings (matchesFilters doc filters).notes = [] := by
  constructor
  · refine List.filterMap_eq_nil_iff.2 fun note mem => ?_
    obtain ⟨noted, -, rfl⟩ := List.mem_map.1 mem
    rfl
  · refine List.filterMap_eq_nil_iff.2 fun note mem => ?_
    obtain ⟨noted, -, rfl⟩ := List.mem_map.1 mem
    rfl

theorem outcome_matchesFilters (doc : Document) (filters : List Filter) :
    (matchesFilters doc filters).outcome =
      (matchesAll doc filters).outcome.mapError Error.matching := rfl

/-- Filters whose queries can be read select a document or not. -/
theorem ends_matchesFilters (doc : Document) {filters : List Filter}
    (wellFormed : ∀ filter ∈ filters, filter.WellFormed) :
    ∃ matched, Ends (matchesFilters doc filters) (some matched) [] ∧
      (matched = true ↔ ∀ filter ∈ filters, filter.MatchesOn doc) := by
  obtain ⟨matched, verdict, all⟩ := exists_matchesAll doc wellFormed
  obtain ⟨requested, warned⟩ := silent_matchesFilters doc filters
  refine ⟨matched, ⟨.inl ⟨matched, rfl, ?_⟩, requested, warned⟩, all⟩
  rw [outcome_matchesFilters, verdict]
  rfl

/-- A malformed query is a failure after which the next repository is tried. -/
theorem ends_matchesFilters_none (doc : Document) {filters : List Filter}
    (malformed : ∃ filter ∈ filters, ¬filter.WellFormed) :
    Ends (matchesFilters doc filters) none [] := by
  obtain ⟨error, failed⟩ := (matchesAll_fails_iff doc).2 malformed
  obtain ⟨-, -, -, flaw, -, -, -, rfl⟩ := (matchesAll_eq_error_iff doc).1 failed
  obtain ⟨requested, warned⟩ := silent_matchesFilters doc filters
  refine ⟨.inr ⟨rfl, .matching (.query flaw), ?_, rfl⟩, requested, warned⟩
  rw [outcome_matchesFilters, failed]
  rfl

/-! ### One pull request -/

/-- Each of several items has a partner, or one of them is exceptional. -/
theorem exists_forall₂_or {α β : Type} {R : α → β → Prop} {S : α → Prop}
    (total : ∀ a, (∃ b, R a b) ∨ S a) (as : List α) :
    (∃ bs, List.Forall₂ R as bs) ∨ ∃ a ∈ as, S a := by
  induction as with
  | nil => exact .inl ⟨[], .nil⟩
  | cons a rest ih =>
    rcases total a with ⟨b, related⟩ | alone
    · rcases ih with ⟨bs, others⟩ | ⟨other, mem, alone⟩
      · exact .inl ⟨b :: bs, .cons related others⟩
      · exact .inr ⟨other, List.mem_cons_of_mem _ mem, alone⟩
    · exact .inr ⟨a, List.mem_cons_self .., alone⟩

section PullRequests

variable {query : PullRequestQuery} {client : Client} {api : Api} {since : Moment}
  {doc : Document}

section Listings

variable {α β : Type} {make : Document → Asking α} {listing : Listing}
  {IsMade : Document → α → Prop} {Invalid : Document → Prop}

/-- A listing whose items are read and then dealt with one by one. -/
theorem Client.ends_itemsOf (askable : listing.Askable api)
    (makes : Makes make IsMade Invalid) (whole : ¬listing.Broken api) {as : List α}
    (made : List.Forall₂ IsMade (listing.items api) as) {f : List α → Asking β}
    {result : Option β} {more : List Request} (next : Ends (f as) result more) :
    Ends (client.read api listing >>= fun items => eachDocument make items >>= f) result
      (listing.requests client api ++ more) :=
  ((client.ends_read askable).2 whole).bind
    ((ends_eachDocument_silent (made.imp fun _ _ => makes.ends)).bind next)

/-- If the listing is broken or one of its items is invalid, this is the end. -/
theorem Client.ends_itemsOf_none (askable : listing.Askable api)
    (makes : Makes make IsMade Invalid)
    (amiss : listing.Broken api ∨ ∃ item ∈ listing.items api, Invalid item)
    (f : List α → Asking β) :
    ∃ made, Ends (client.read api listing >>= fun items => eachDocument make items >>= f)
      none made := by
  by_cases broken : listing.Broken api
  · exact ⟨_, ((client.ends_read askable).1 broken).bind_none⟩
  · obtain ⟨item, mem, invalid⟩ := amiss.resolve_left broken
    have each : ∀ item ∈ listing.items api, ∃ result made, Ends (make item) result made := by
      intro item _
      rcases makes.total item with ⟨a, valid⟩ | invalid
      · exact ⟨_, _, makes.ends valid⟩
      · exact ⟨_, _, makes.ends_none invalid⟩
    obtain ⟨made, failed⟩ :=
      ends_eachDocument_none each ⟨item, mem, _, makes.ends_none invalid⟩
    exact ⟨_, ((client.ends_read askable).2 broken).bind failed.bind_none⟩

end Listings

/-- Something is amiss with a pull request, or it yields something. -/
theorem exists_yieldsOn_or (doc : Document) :
    (∃ part : List Event × List Request,
      query.YieldsOn client api since doc part.1 part.2) ∨ query.FailsOn api since doc := by
  refine Classical.or_iff_not_imp_right.2 fun whole => ?_
  obtain ⟨pullRequest, valid⟩ : ∃ pullRequest, PullRequest.ofDocument doc = .ok pullRequest := by
    cases read : PullRequest.ofDocument doc with
    | ok pullRequest => exact ⟨pullRequest, rfl⟩
    | error faults => exact absurd (.payload read) whole
  by_cases selected : query.Selects doc
  · obtain ⟨comments, ofComments⟩ := (exists_forall₂_or
      (makes_commentEvent pullRequest.number query.priority).total
      ((query.comments since pullRequest).items api)).resolve_right fun amiss =>
        whole (.comments valid selected (.inr amiss))
    obtain ⟨issueEvents, ofIssueEvents⟩ := (exists_forall₂_or
      (makes_issueEvent pullRequest.number query.priority).total
      ((query.issueEvents since pullRequest).items api)).resolve_right fun amiss =>
        whole (.issueEvents valid selected (.inr amiss))
    exact ⟨(_, _), .selected valid selected
      (fun broken => whole (.comments valid selected (.inl broken))) ofComments
      (fun broken => whole (.issueEvents valid selected (.inl broken))) ofIssueEvents rfl⟩
  · exact ⟨([], []), .passed valid (fun filter mem =>
      Classical.byContradiction fun malformed => whole (.filter mem malformed)) selected⟩

/-- With its payload and the filters in order, what is amiss with a pull request is that it is
selected and its comments or its issue events cannot be had. -/
theorem PullRequestQuery.FailsOn.of_valid {pullRequest : PullRequest}
    (fails : query.FailsOn api since doc) (valid : PullRequest.ofDocument doc = .ok pullRequest)
    (wellFormed : ∀ filter ∈ query.filters, filter.WellFormed) :
    query.Selects doc ∧
      (((query.comments since pullRequest).Broken api ∨
        ∃ item ∈ (query.comments since pullRequest).items api,
          ∃ faults, IssueComment.ofDocument item = .error faults) ∨
      (query.issueEvents since pullRequest).Broken api ∨
        ∃ item ∈ (query.issueEvents since pullRequest).items api,
          ∃ faults, IssueEvent.ofDocument item = .error faults) := by
  cases fails with
  | payload invalid =>
    rw [valid] at invalid
    cases invalid
  | filter mem malformed => exact absurd (wellFormed _ mem) malformed
  | comments read selected amiss =>
    rw [valid, Except.ok.injEq] at read
    exact ⟨selected, .inl (read ▸ amiss)⟩
  | issueEvents read selected amiss =>
    rw [valid, Except.ok.injEq] at read
    exact ⟨selected, .inr (read ▸ amiss)⟩

/-- Nothing is amiss with a pull request that yields something. -/
theorem PullRequestQuery.YieldsOn.whole {events : List Event} {made : List Request}
    (yields : query.YieldsOn client api since doc events made) : ¬query.FailsOn api since doc := by
  intro fails
  cases yields with
  | passed valid wellFormed unselected =>
    exact unselected (fails.of_valid valid wellFormed).1
  | @selected pullRequest valid selected _ _ commentsWhole ofComments issueEventsWhole
      ofIssueEvents _ _ =>
    obtain ⟨-, (broken | ⟨item, mem, invalid⟩) | broken | ⟨item, mem, invalid⟩⟩ :=
      fails.of_valid valid fun filter mem => (selected filter mem).wellFormed
    · exact commentsWhole broken
    · exact (makes_commentEvent ..).not_invalid ofComments mem invalid
    · exact issueEventsWhole broken
    · exact (makes_issueEvent ..).not_invalid ofIssueEvents mem invalid

/-- **A pull request for which nothing is amiss** is collected as it is described. -/
theorem Client.ends_pullRequestEvents (free : ∀ stop, ¬query.StuckOn api since doc stop)
    {events : List Event} {made : List Request}
    (yields : query.YieldsOn client api since doc events made) :
    Ends (client.pullRequestEvents api query since doc) (some events) made := by
  cases yields with
  | passed valid wellFormed unselected =>
    obtain ⟨matched, matching, selects⟩ := ends_matchesFilters doc wellFormed
    obtain rfl : matched = false := Bool.eq_false_iff.2 fun h => unselected (selects.1 h)
    exact (ends_expect_ok valid).bind (matching.bind (.log_debug _ _ (.pure [])))
  | @selected pullRequest valid selected _ _ commentsWhole ofComments issueEventsWhole
      ofIssueEvents _ ofItself =>
    -- the collector puts the same event together
    obtain rfl := ofItself
    obtain ⟨matched, matching, selects⟩ := ends_matchesFilters doc fun filter mem =>
      (selected filter mem).wellFormed
    obtain rfl : matched = true := selects.2 selected
    -- the issue events are come to, for the comments are in order
    have askable : (query.issueEvents since pullRequest).Askable api :=
      Classical.byContradiction fun refused =>
        free _ (.intro valid selected commentsWhole ofComments refused)
    refine (ends_expect_ok valid).bind (matching.bind (client.ends_itemsOf
      (Listing.askable_of_after_none rfl) (makes_commentEvent ..) commentsWhole ofComments ?_))
    rw [← List.append_nil ((query.issueEvents since pullRequest).requests client api)]
    exact client.ends_itemsOf askable (makes_issueEvent ..) issueEventsWhole ofIssueEvents
      (.pure _)

/-- **A pull request for which anything is amiss** ends the collection of its repository. The
cases follow the order in which the collector looks; what is amiss may come up later. -/
theorem Client.ends_pullRequestEvents_none (free : ∀ stop, ¬query.StuckOn api since doc stop)
    (fails : query.FailsOn api since doc) :
    ∃ made, Ends (client.pullRequestEvents api query since doc) none made := by
  cases valid : PullRequest.ofDocument doc with
  | error faults => exact ⟨_, (ends_expect_error valid).bind_none⟩
  | ok pullRequest =>
    by_cases malformed : ∃ filter ∈ query.filters, ¬filter.WellFormed
    · exact ⟨_, (ends_expect_ok valid).bind (ends_matchesFilters_none doc malformed).bind_none⟩
    have wellFormed : ∀ filter ∈ query.filters, filter.WellFormed := fun filter mem =>
      Classical.byContradiction fun unread => malformed ⟨filter, mem, unread⟩
    obtain ⟨matched, matching, selects⟩ := ends_matchesFilters doc wellFormed
    obtain ⟨selected, amiss⟩ := fails.of_valid valid wellFormed
    obtain rfl : matched = true := selects.2 selected
    have asked : (query.comments since pullRequest).Askable api :=
      Listing.askable_of_after_none rfl
    have ofComment := makes_commentEvent pullRequest.number query.priority
    have ofIssueEvent := makes_issueEvent pullRequest.number query.priority
    by_cases first : (query.comments since pullRequest).Broken api ∨
        ∃ item ∈ (query.comments since pullRequest).items api,
          ∃ faults, IssueComment.ofDocument item = .error faults
    · obtain ⟨made, failed⟩ := client.ends_itemsOf_none asked ofComment first _
      exact ⟨_, (ends_expect_ok valid).bind (matching.bind failed)⟩
    · obtain ⟨comments, ofComments⟩ := (exists_forall₂_or ofComment.total
        ((query.comments since pullRequest).items api)).resolve_right fun amiss =>
          first (.inr amiss)
      have whole : ¬(query.comments since pullRequest).Broken api :=
        fun broken => first (.inl broken)
      have askable : (query.issueEvents since pullRequest).Askable api :=
        Classical.byContradiction fun refused =>
          free _ (.intro valid selected whole ofComments refused)
      obtain ⟨made, failed⟩ :=
        client.ends_itemsOf_none askable ofIssueEvent (amiss.resolve_left first) _
      exact ⟨_, (ends_expect_ok valid).bind (matching.bind (client.ends_itemsOf asked
        ofComment whole ofComments failed))⟩

end PullRequests

/-! ### One repository -/

section Queries

variable {query : PullRequestQuery} {client : Client} {api : Api} {since : Moment}

/-- The pull requests of a repository are listed, with a record on their number. -/
theorem Client.ends_pullRequests {result : Option (List Document)} {made : List Request}
    (h : Ends (client.read api (query.listing since)) result made) :
    Ends (client.pullRequests api query.owner query.repo since) result made := by
  cases result with
  | none => exact h.bind_none
  | some items =>
    rw [← List.append_nil made]
    exact h.bind (.log_debug _ _ (.pure items))

/-- Something is amiss in a repository, or it yields something. -/
theorem exists_yields (whole : ¬query.Fails api since) :
    ∃ events made, query.Yields client api since events made := by
  obtain ⟨parts, yields⟩ := (exists_forall₂_or exists_yieldsOn_or
    ((query.listing since).items api)).resolve_right fun amiss => whole (.inr amiss)
  exact ⟨_, _, fun broken => whole (.inl broken), parts, yields, rfl, rfl⟩

/-- **Pull requests for which nothing is amiss** are collected as they are described. Each is come
to, so none of them gets stuck. -/
theorem Client.ends_eachPullRequest {docs : List Document}
    (free : ∀ stop, ¬query.StuckAmong api since docs stop)
    {parts : List (List Event × List Request)}
    (yields : List.Forall₂ (fun doc part => query.YieldsOn client api since doc part.1 part.2)
      docs parts) :
    Ends (eachDocument (client.pullRequestEvents api query since) docs)
      (some (parts.map Prod.fst)) (parts.flatMap Prod.snd) := by
  induction yields with
  | nil => exact .pure []
  | cons first _ ih =>
    have freeHere : ∀ stop, ¬query.StuckOn api since _ stop := fun stop stuck =>
      free stop (.here stuck)
    have others := ih fun stop stuck => free stop (.behind first.whole freeHere stuck)
    exact (client.ends_pullRequestEvents freeHere first).bind (others.map _)

/-- One for which anything is amiss is the end of them. -/
theorem Client.ends_eachPullRequest_none {docs : List Document}
    (free : ∀ stop, ¬query.StuckAmong api since docs stop)
    (fails : ∃ doc ∈ docs, query.FailsOn api since doc) :
    ∃ made, Ends (eachDocument (client.pullRequestEvents api query since) docs) none made := by
  induction docs with
  | nil => simp at fails
  | cons doc rest ih =>
    have freeHere : ∀ stop, ¬query.StuckOn api since doc stop := fun stop stuck =>
      free stop (.here stuck)
    by_cases amiss : query.FailsOn api since doc
    · obtain ⟨made, failed⟩ := client.ends_pullRequestEvents_none freeHere amiss
      exact ⟨made, failed.bind_none⟩
    · -- it is one of the others
      obtain ⟨part, yields⟩ := (exists_yieldsOn_or doc).resolve_right amiss
      obtain ⟨more, failed⟩ := ih (fun stop stuck => free stop (.behind amiss freeHere stuck))
        (((List.exists_mem_cons_iff ..).1 fails).resolve_left amiss)
      exact ⟨_, (client.ends_pullRequestEvents freeHere yields).bind (failed.map _)⟩

/-- What does not get stuck can at least be listed. -/
theorem PullRequestQuery.askable_of_free (free : ∀ stop, ¬query.StuckAt api since stop) :
    (query.listing since).Askable api :=
  Classical.byContradiction fun refused => free _ (.listing refused)

/-- **A repository in which nothing is amiss** is collected as it is described. -/
theorem Client.ends_queryEvents (free : ∀ stop, ¬query.StuckAt api since stop)
    {events : List Event} {made : List Request}
    (yields : query.Yields client api since events made) :
    Ends (client.queryEvents api query since) (some events) made := by
  obtain ⟨whole, parts, yields, rfl, rfl⟩ := yields
  have askable := query.askable_of_free free
  have listed := client.ends_pullRequests ((client.ends_read askable).2 whole)
  have collected := (client.ends_eachPullRequest (fun stop stuck =>
    free stop (.issueEvents askable whole stuck)) yields).map List.flatten
  rw [Option.map_some, ← List.flatMap_def] at collected
  exact listed.bind collected

/-- **A repository in which anything is amiss** ends with an error after which the next one is
tried. -/
theorem Client.ends_queryEvents_none (free : ∀ stop, ¬query.StuckAt api since stop)
    (fails : query.Fails api since) :
    ∃ made, Ends (client.queryEvents api query since) none made := by
  have askable := query.askable_of_free free
  by_cases broken : (query.listing since).Broken api
  · exact ⟨_, (client.ends_pullRequests ((client.ends_read askable).1 broken)).bind_none⟩
  · obtain ⟨made, failed⟩ := client.ends_eachPullRequest_none
      (fun stop stuck => free stop (.issueEvents askable broken stuck))
      (fails.resolve_left broken)
    exact ⟨_, (client.ends_pullRequests ((client.ends_read askable).2 broken)).bind
      failed.bind_none⟩

end Queries

/-! ### A whole configuration -/

section Configurations

variable (client : Client) {api : Api}

/-- The repositories of a list contribute one after the other, and each makes the requests
that it makes alone. The induction is on the list; what a repository contributes does not
depend on the others. -/
theorem Client.eventsSince_contributions {since : Moment} {queries : List PullRequestQuery}
    (free : ∀ query ∈ queries, ∀ stop, ¬query.StuckAt api since stop) :
    ∃ parts : List (List Event × List LogRecord),
      List.Forall₂ (fun query part => query.Contributes client api since part.1 part.2)
        queries parts ∧
      (client.eventsSince api since queries).outcome = .ok (parts.flatMap Prod.fst) ∧
      warnings (client.eventsSince api since queries).notes = parts.flatMap Prod.snd ∧
      requests (client.eventsSince api since queries).notes =
        queries.flatMap fun query => requests (client.queryEvents api query since).notes := by
  induction queries with
  | nil => exact ⟨[], .nil, rfl, rfl, rfl⟩
  | cons query rest ih =>
    obtain ⟨first, free⟩ := List.forall_mem_cons.1 free
    obtain ⟨parts, contributions, outcome, warned, requested⟩ := ih free
    rw [eventsSince, Traced.attempt_bind]
    by_cases fails : query.Fails api since
    · obtain ⟨made, ends⟩ := client.ends_queryEvents_none first fails
      obtain ⟨error, failed, skipped⟩ := ends.outcome_none
      refine ⟨([], [query.warning error.message]) :: parts,
        .cons (.skipped fails error.message) contributions, ?_⟩
      simp only [failed, skipped, if_true]
      -- what was requested before the failure stays requested
      rw [Traced.bind_of_ok rfl]
      refine ⟨outcome, ?_, ?_⟩
      · rw [warnings_append, warnings_append, ends.warnings, warned]
        rfl
      · rw [requests_append, requests_append, requested]
        rfl
    · obtain ⟨events, made, yields⟩ : ∃ events made,
          query.Yields client api since events made := exists_yields fails
      have ends := client.ends_queryEvents first yields
      refine ⟨(events, []) :: parts, .cons (.collected fails (ends.requests ▸ yields))
        contributions, ?_⟩
      simp only [ends.outcome_some]
      rw [Traced.bind_of_ok outcome]
      refine ⟨rfl, ?_, ?_⟩
      · rw [warnings_append, warnings_append, ends.warnings, warned]
        exact List.append_nil _
      · rw [requests_append, requests_append, requested]
        exact congrArg _ (List.append_nil _)

/-- Where the start is in range, the repositories are collected from it on. -/
theorem Client.events_of_shift? {config : Config} {now since : Moment} {minutes : Int}
    (range : now.shift? (-(minutes * 60000000)) = some since) :
    client.events api config now minutes = client.eventsSince api since config.queries := by
  rw [events, minutesBefore, range]
  rfl

/-- **What a configuration yields.** Collecting the events of a configuration returns, and
there are contributions of its repositories, in their order, that make up the events and the
warnings: of a repository in which anything is amiss exactly one warning and no event, even
if some of its events were built before; of every other one the events of the pull requests
that are selected, each behind those of its comments and of its issue events. The requests
are those that each repository makes alone; for a pull request that is not selected there is
none, nor an event. -/
theorem Client.events_contributions (config : Config) (now since : Moment) (minutes : Int)
    (range : now.shift? (-(minutes * 60000000)) = some since) (objects : api.ListsObjects) :
    (∃ parts : List (List Event × List LogRecord),
      List.Forall₂ (fun query part => query.Contributes client api since part.1 part.2)
        config.queries parts ∧
      (client.events api config now minutes).outcome = .ok (parts.flatMap Prod.fst) ∧
      warnings (client.events api config now minutes).notes = parts.flatMap Prod.snd) ∧
    requests (client.events api config now minutes).notes =
      (config.queries.flatMap fun query => requests (client.queryEvents api query since).notes) ∧
    ∀ query ∈ config.queries, ∀ doc pullRequest, PullRequest.ofDocument doc = .ok pullRequest →
      (∀ filter ∈ query.filters, filter.WellFormed) → ¬query.Selects doc →
        (client.pullRequestEvents api query since doc).outcome = .ok [] ∧
          requests (client.pullRequestEvents api query since doc).notes = [] := by
  obtain ⟨parts, contributions, outcome, warned, requested⟩ :=
    client.eventsSince_contributions fun query _ => (objects.askable query since).free
  rw [client.events_of_shift? range]
  refine ⟨⟨parts, contributions, outcome, warned⟩, requested, ?_⟩
  intro query _ doc pullRequest valid wellFormed unselected
  have yields : query.YieldsOn client api since doc [] [] :=
    .passed valid wellFormed unselected
  have free : ∀ stop, ¬query.StuckOn api since doc stop := by
    rintro stop ⟨-, -, -, -, refused⟩
    exact refused (objects.issueEvents _ _ _ _).askable
  have ends := client.ends_pullRequestEvents free yields
  exact ⟨ends.outcome_some, ends.requests⟩

end Configurations

/-- Two repositories, the first of which is not reached. -/
theorem events_contributions_unreachable :
    let client : Client := .ofHost "https://api.github.com/" "token"
    let page : Reply := .answered 200 ("[\x7b\"number\":1,\"html_url\":\"\",\"title\":\"\"," ++
      "\"user\":\x7b\"login\":\"\"\x7d,\"updated_at\":\"2022-10-01\"\x7d]")
    let api : Api := fun path =>
      if path = "repos/o/gone/pulls" then [.unreachable "no route"]
      else if path = "repos/o/r/pulls" then [page]
      else []
    let gone : PullRequestQuery := ⟨"o", "gone", 0, []⟩
    let watched : PullRequestQuery := ⟨"o", "r", 1, [⟨"\"number\"", .equal, ["1"], by decide⟩]⟩
    let config : Config := ⟨⟨some [gone, watched]⟩⟩
    let now : Moment := ⟨Clock.dayMicros, by decide⟩
    let since : Moment := ⟨0, by decide⟩
    now.shift? (-(1440 * 60000000)) = some since ∧ api.ListsObjects ∧
      (∃ parts : List (List Event × List LogRecord),
        List.Forall₂ (fun query part => query.Contributes client api since part.1 part.2)
          [gone, watched] parts ∧
        (client.events api config now 1440).outcome = .ok (parts.flatMap Prod.fst) ∧
        warnings (client.events api config now 1440).notes = parts.flatMap Prod.snd) ∧
      requests (client.events api config now 1440).notes =
        requests (client.queryEvents api gone since).notes ++
          requests (client.queryEvents api watched since).notes := by
  intro client page api gone watched config now since
  have range : now.shift? (-(1440 * 60000000)) = some since := by decide
  have read : page.items? = some [.object [("number", .number (.int 1)),
      ("html_url", .string ""), ("title", .string ""),
      ("user", .object [("login", .string "")]), ("updated_at", .string "2022-10-01")]] := by
    cbv
  have listed : ∀ path, ∀ reply ∈ api path, ∀ items, reply.items? = some items →
      ∀ item ∈ items, item.isObject = true := by
    intro path reply mem items found item item_mem
    simp only [api] at mem
    split at mem
    · rw [List.mem_singleton.1 mem] at found
      cases found
    · split at mem
      · rw [List.mem_singleton.1 mem, read] at found
        cases found
        rw [List.mem_singleton.1 item_mem]
        rfl
      · cases mem
  have objects : api.ListsObjects := ⟨fun _ _ _ => listed _, fun _ _ _ _ => listed _⟩
  obtain ⟨parts, requested, -⟩ := client.events_contributions config now since 1440 range objects
  have queries : config.queries = [gone, watched] := rfl
  rw [queries] at parts requested
  rw [List.flatMap_cons, List.flatMap_singleton] at requested
  exact ⟨range, objects, parts, requested⟩

end DocumentFilter.GitHub
