import DocumentFilter.Proofs.GitHub.Age

/-!
# Which failures are foreseen

A listing fails as it should if it fails for what the interface answers: no reply, no JSON, no
array. Such an error is one of the interface, and a collector that meets it goes on with the next
repository. But between the pages the items are asked for their age, and an item that cannot be
asked (`DocumentFilter.GitHub.Unaskable`) is an error of another sort, which nothing on the way
up is prepared for: not only is its repository lost, but all of them are.

So a listing that asks for ages ends regularly exactly if its items can be asked, where only the
items in front of its last page count. One half is that errors of single pages are the
interface's. The other is that the first item that cannot be asked comes up before the listing is
over, whatever the pages behind it are.

* `DocumentFilter.GitHub.EndsRegularly`: a result, or an error of the interface;
* `DocumentFilter.GitHub.Client.endsRegularly_read_iff`: one listing;
* `DocumentFilter.GitHub.Client.exists_refused_of_stuck`: what is lost otherwise;
* `DocumentFilter.GitHub.Client.endsRegularly_listings`: **all listings, and the collection**.
-/

namespace DocumentFilter.GitHub

/-! ### Errors of the interface -/

/-- The errors that are the interface's: there is no token for it, or it says nothing or nothing
that is a page. -/
def Error.isVendor : Error → Bool
  | .noToken => true
  | .unreachable _ _ => true
  | .malformed _ _ => true
  | .notArray _ => true
  | _ => false

/-- **A regular end**: with a result, or with an error of the interface. -/
def EndsRegularly {α : Type} (x : Asking α) : Prop :=
  (∃ a, x.outcome = .ok a) ∨ ∃ error, x.outcome = .error error ∧ error.isVendor = true

theorem endsRegularly_of_errors {α : Type} {x : Asking α}
    (vendor : ∀ error, x.outcome = .error error → error.isVendor = true) : EndsRegularly x := by
  cases outcome : x.outcome with
  | ok a => exact .inl ⟨a, outcome⟩
  | error error => exact .inr ⟨error, outcome, vendor error outcome⟩

theorem not_endsRegularly_of_itemKind {α : Type} {x : Asking α} {kind : Kind}
    (failed : x.outcome = .error (.itemKind kind)) : ¬EndsRegularly x := by
  rintro (⟨a, outcome⟩ | ⟨error, outcome, vendor⟩)
  · rw [failed] at outcome
    cases outcome
  · rw [failed] at outcome
    cases outcome
    cases vendor

/-! ### One listing -/

namespace Client

section Listings

variable (client : Client) (listing : Listing) {page : Nat}

/-- A page that cannot be read is the interface's. -/
theorem isVendor_of_readPage {reply : Reply} {error : Error}
    (failed : (client.readPage listing page reply).outcome = .error error) :
    error.isVendor = true := by
  cases reply with
  | unreachable reason =>
    cases failed
    rfl
  | answered status body =>
    simp only [readPage, log, Traced.outcome_bind, Traced.outcome_note, Except.bind] at failed
    split at failed
    · cases failed
    · split at failed
      · cases failed
        rfl
      · cases failed
      · cases failed
        rfl

/-- Where all items can be asked, every error is one of a page. The induction is on the replies;
what is kept of a page is no reason to fail. -/
theorem isVendor_of_readFrom {replies : List Reply}
    (askable : ∀ item ∈ fullItems replies, ¬listing.Refuses item) {error : Error}
    (failed : (client.readFrom listing page replies).outcome = .error error) :
    error.isVendor = true := by
  induction replies generalizing page with
  | nil =>
    rw [readFrom] at failed
    rcases Traced.outcome_bind_eq_error.1 failed with unread | ⟨_, -, returned⟩
    · exact client.isVendor_of_readPage listing unread
    · cases returned
  | cons reply rest ih =>
    rw [readFrom] at failed
    rcases Traced.outcome_bind_eq_error.1 failed with unread | ⟨read, page_read, failed⟩
    · exact client.isVendor_of_readPage listing unread
    cases read with
    | none => cases failed
    | some items =>
      obtain ⟨found, full⟩ := (client.outcome_readPage_eq_some_iff ..).1 page_read
      rw [fullItems_of_isFull found full, List.forall_mem_append] at askable
      rcases Traced.outcome_bind_eq_error.1 failed with refused | ⟨kept, -, failed⟩
      · -- all items of the page can be asked
        rw [(ends_keepItems listing askable.1).outcome_some] at refused
        cases refused
      · rcases Traced.outcome_bind_eq_error.1 failed with failed | ⟨more, -, returned⟩
        · exact ih askable.2 failed
        · cases returned

/-- The first item that cannot be asked is the end of keeping items. -/
theorem exists_refused_of_keepItems {items : List Document}
    (refused : ∃ item ∈ items, listing.Refuses item) :
    ∃ item ∈ items, listing.Refuses item ∧
      (keepItems listing.after items).outcome = .error (.itemKind item.kind) := by
  induction items with
  | nil => simp at refused
  | cons item rest ih =>
    rw [keepItems.eq_def]
    by_cases first : listing.Refuses item
    · obtain ⟨field, since, after, unaskable⟩ := first
      refine ⟨item, List.mem_cons_self .., ⟨field, since, after, unaskable⟩, ?_⟩
      rw [after]
      exact Traced.outcome_bind_of_error (outcome_isAfter_of_unaskable unaskable since) _
    · -- it is kept or not, and the end comes with one of the others
      obtain ⟨other, mem, ⟨field, since, after, unaskable⟩, failed⟩ :=
        ih ((List.exists_mem_cons_iff ..).1 refused |>.resolve_left first)
      have asked : ¬Unaskable field item := fun unaskable => first ⟨field, since, after, unaskable⟩
      refine ⟨other, List.mem_cons_of_mem _ mem, ⟨field, since, after, unaskable⟩, ?_⟩
      rw [after] at failed ⊢
      rw [Traced.outcome_bind_of_ok (ends_isAfter asked since).outcome_some]
      exact Traced.outcome_bind_of_error failed _

/-- An item that cannot be asked, on whatever full page, is the end of the walk. -/
theorem exists_refused_of_readFrom {replies : List Reply}
    (refused : ∃ item ∈ fullItems replies, listing.Refuses item) (page : Nat) :
    ∃ item ∈ fullItems replies, listing.Refuses item ∧
      (client.readFrom listing page replies).outcome = .error (.itemKind item.kind) := by
  induction replies generalizing page with
  | nil => simp [fullItems, fullPages] at refused
  | cons reply rest ih =>
    cases full : reply.isFull with
    | false => simp [fullItems, fullPages_of_not_isFull full] at refused
    | true =>
      obtain ⟨items, found⟩ := Reply.exists_items_of_isFull full
      rw [fullItems_of_isFull found full] at refused ⊢
      have read : (client.readPage listing page reply).outcome = .ok (some items) :=
        (client.outcome_readPage_eq_some_iff ..).2 ⟨found, full⟩
      rw [readFrom, Traced.outcome_bind_of_ok read]
      by_cases first : ∃ item ∈ items, listing.Refuses item
      · -- the page is read, but not all of it is kept
        obtain ⟨item, mem, refuses, failed⟩ := exists_refused_of_keepItems listing first
        exact ⟨item, List.mem_append_left _ mem, refuses, Traced.outcome_bind_of_error failed _⟩
      · -- the page is kept, and the end comes behind it
        obtain ⟨item, mem, refuses⟩ := refused
        have behind := (List.mem_append.1 mem).resolve_left fun here => first ⟨item, here, refuses⟩
        have askable : ∀ item ∈ items, ¬listing.Refuses item :=
          fun item mem refuses => first ⟨item, mem, refuses⟩
        obtain ⟨other, mem, refuses, failed⟩ := ih ⟨item, behind, refuses⟩ (page + 1)
        refine ⟨other, List.mem_append_right _ mem, refuses, ?_⟩
        exact (Traced.outcome_bind_of_ok (ends_keepItems listing askable).outcome_some _).trans
          (Traced.outcome_bind_of_error failed _)

end Listings

section Interfaces

variable (client : Client) {api : Api} {listing : Listing}

/-- What a listing that cannot be gone through fails with: the kind of one of its items. -/
theorem exists_refused_of_read (refused : ¬listing.Askable api) :
    ∃ item ∈ fullItems (api listing.path), listing.Refuses item ∧
      (client.read api listing).outcome = .error (.itemKind item.kind) := by
  refine client.exists_refused_of_readFrom listing ?_ 1
  simpa [Listing.Askable] using refused

/-- **A listing ends regularly** exactly if it can be gone through. -/
theorem endsRegularly_read_iff : EndsRegularly (client.read api listing) ↔ listing.Askable api := by
  constructor
  · intro regular
    by_contra refused
    obtain ⟨item, -, -, failed⟩ := client.exists_refused_of_read refused
    exact not_endsRegularly_of_itemKind failed regular
  · intro askable
    exact endsRegularly_of_errors fun error failed =>
      client.isVendor_of_readFrom listing askable failed

/-- Listing pull requests ends as reading their listing does. -/
theorem outcome_pullRequests (owner repo : String) (since : Moment) :
    (client.pullRequests api owner repo since).outcome =
      (client.read api (pullRequestListing owner repo since)).outcome := by
  rw [pullRequests, Traced.outcome_bind]
  cases (client.read api (pullRequestListing owner repo since)).outcome <;> rfl

end Interfaces

/-! ### The collection -/

section Collections

variable (client : Client) {api : Api} {query : PullRequestQuery} {since : Moment}

/-- A repository that does not get stuck ends, with events or for the next one to be tried. -/
theorem exists_ends_queryEvents (free : ∀ stop, ¬query.StuckAt api since stop) :
    ∃ result made, Ends (client.queryEvents api query since) result made := by
  by_cases fails : query.Fails api since
  · obtain ⟨made, ends⟩ := client.ends_queryEvents_none free fails
    exact ⟨none, made, ends⟩
  · obtain ⟨events, made, yields⟩ : ∃ events made,
        query.Yields client api since events made := exists_yields fails
    exact ⟨some events, made, client.ends_queryEvents free yields⟩

/-- Where not even the first page is full, there is nothing to ask. -/
theorem askable_of_not_isFull {reply : Reply} {rest : List Reply}
    (listed : api (query.listing since).path = reply :: rest) (last : reply.isFull = false) :
    query.Askable api since := by
  have none : fullPages (api (query.listing since).path) = [] := by
    rw [listed, fullPages_of_not_isFull last]
  constructor
  · simp [Listing.Askable, fullItems, none]
  · simp [Listing.items, none]

/-- The repositories behind one that ends decide. -/
theorem outcome_eventsSince_cons {result : Option (List Event)} {made : List Request}
    (ends : Ends (client.queryEvents api query since) result made)
    (rest : List PullRequestQuery) :
    (client.eventsSince api since (query :: rest)).outcome =
      (client.eventsSince api since rest).outcome.map (result.getD [] ++ ·) := by
  rw [eventsSince, Traced.attempt_bind]
  cases result with
  | none =>
    obtain ⟨error, failed, skipped⟩ := ends.outcome_none
    simp only [failed, skipped, if_true]
    rw [Traced.bind_of_ok rfl]
    cases (client.eventsSince api since rest).outcome <;> rfl
  | some events =>
    simp only [ends.outcome_some, Traced.outcome_bind]
    cases (client.eventsSince api since rest).outcome <;> rfl

/-- A pull request that gets stuck fails with the kind of one of the items that it gets stuck
at. -/
theorem exists_refused_of_stuckOn {doc : Document} {stop : Listing}
    (stuck : query.StuckOn api since doc stop) :
    ∃ item ∈ fullItems (api stop.path), stop.Refuses item ∧
      (client.pullRequestEvents api query since doc).outcome = .error (.itemKind item.kind) := by
  obtain ⟨valid, selected, whole, commented, refused⟩ := stuck
  obtain ⟨item, mem, refuses, failed⟩ := client.exists_refused_of_read refused
  refine ⟨item, mem, refuses, ?_⟩
  obtain ⟨matched, matching, selects⟩ := ends_matchesFilters doc fun filter mem =>
    (selected filter mem).wellFormed
  obtain rfl : matched = true := selects.2 selected
  have comments := (client.ends_read (Listing.askable_of_after_none rfl)).2 whole
  have events := ends_eachDocument_silent (commented.imp fun _ _ => (makes_commentEvent ..).ends)
  -- everything in front of the issue events has a result
  rw [pullRequestEvents, Traced.outcome_bind_of_ok (ends_expect_ok valid).outcome_some]
  refine (Traced.outcome_bind_of_ok matching.outcome_some _).trans ?_
  refine (Traced.outcome_bind_of_ok comments.outcome_some _).trans ?_
  refine (Traced.outcome_bind_of_ok events.outcome_some _).trans ?_
  exact Traced.outcome_bind_of_error failed _

/-- So do several, if one of them does. -/
theorem exists_refused_of_stuckAmong {docs : List Document} {stop : Listing}
    (stuck : query.StuckAmong api since docs stop) :
    ∃ item ∈ fullItems (api stop.path), stop.Refuses item ∧
      (eachDocument (client.pullRequestEvents api query since) docs).outcome =
        .error (.itemKind item.kind) := by
  induction stuck with
  | here stuck =>
    obtain ⟨item, mem, refuses, failed⟩ := client.exists_refused_of_stuckOn stuck
    exact ⟨item, mem, refuses, Traced.outcome_bind_of_error failed _⟩
  | behind whole free later ih =>
    obtain ⟨item, mem, refuses, failed⟩ := ih
    -- the first one ends with its events, so the others decide
    obtain ⟨part, yields⟩ := (exists_yieldsOn_or _).resolve_right whole
    have first := (client.ends_pullRequestEvents free yields).outcome_some
    refine ⟨item, mem, refuses, (Traced.outcome_bind_of_ok first _).trans ?_⟩
    exact Traced.outcome_bind_of_error failed _

/-- And so does a repository. -/
theorem exists_refused_of_stuckAt {stop : Listing} (stuck : query.StuckAt api since stop) :
    ∃ item ∈ fullItems (api stop.path), stop.Refuses item ∧
      (client.queryEvents api query since).outcome = .error (.itemKind item.kind) := by
  cases stuck with
  | listing refused =>
    obtain ⟨item, mem, refuses, failed⟩ := client.exists_refused_of_read refused
    have listed := (client.outcome_pullRequests ..).trans failed
    exact ⟨item, mem, refuses, Traced.outcome_bind_of_error listed _⟩
  | issueEvents askable whole stuck =>
    obtain ⟨item, mem, refuses, failed⟩ := client.exists_refused_of_stuckAmong stuck
    have listed := (client.ends_pullRequests ((client.ends_read askable).2 whole)).outcome_some
    refine ⟨item, mem, refuses, (Traced.outcome_bind_of_ok listed _).trans ?_⟩
    exact Traced.outcome_bind_of_error failed _

/-- **What is lost otherwise.** Behind repositories that do not get stuck, one that does is the end
of the whole collection. -/
theorem exists_refused_of_stuck {before : List PullRequestQuery}
    (free : ∀ other ∈ before, ∀ stop, ¬other.StuckAt api since stop) {stop : Listing}
    (stuck : query.StuckAt api since stop) (after : List PullRequestQuery) :
    ∃ item ∈ fullItems (api stop.path), stop.Refuses item ∧
      (client.eventsSince api since (before ++ query :: after)).outcome =
        .error (.itemKind item.kind) := by
  obtain ⟨item, mem, refuses, failed⟩ := client.exists_refused_of_stuckAt stuck
  refine ⟨item, mem, refuses, ?_⟩
  induction before with
  | nil =>
    -- an item's kind is not among the errors that are skipped
    rw [List.nil_append, eventsSince, Traced.attempt_bind]
    simp only [failed]
    rfl
  | cons other before ih =>
    obtain ⟨first, free⟩ := List.forall_mem_cons.1 free
    obtain ⟨result, made, ends⟩ := client.exists_ends_queryEvents first
    rw [List.cons_append, client.outcome_eventsSince_cons ends, ih free]
    rfl

end Collections

/-- **Listings and their failures.** Comments are always listed or refused by the interface;
pull requests and issue events exactly if no item on a full page is such that it cannot be asked
for its age. If no repository of a configuration gets stuck at a listing with such an item,
collecting returns: a repository in which anything is amiss has one warning and no event, and the
others have their events. But the first repository that does, be it at its own listing or at the
issue events of one of its pull requests, takes all the others with it. -/
theorem endsRegularly_listings (client : Client) (api : Api) :
    (∀ owner repo since, EndsRegularly (client.pullRequests api owner repo since) ↔
      (pullRequestListing owner repo since).Askable api) ∧
    (∀ issue owner repo since, EndsRegularly (client.issueComments api issue owner repo since)) ∧
    (∀ issue owner repo since, EndsRegularly (client.issueEvents api issue owner repo since) ↔
      (eventListing issue owner repo since).Askable api) ∧
    ∀ (config : Config) (now since : Moment) (minutes : Int),
      now.shift? (-(minutes * 60000000)) = some since →
      ((∀ query ∈ config.queries, ∀ stop, ¬query.StuckAt api since stop) →
        ∃ parts : List (List Event × List LogRecord),
          List.Forall₂ (fun query part => query.Contributes client api since part.1 part.2)
            config.queries parts ∧
          (client.events api config now minutes).outcome = .ok (parts.flatMap Prod.fst) ∧
          warnings (client.events api config now minutes).notes = parts.flatMap Prod.snd) ∧
      ∀ before query after, config.queries = before ++ query :: after →
        (∀ other ∈ before, ∀ stop, ¬other.StuckAt api since stop) →
          ∀ stop, query.StuckAt api since stop → ∃ item ∈ fullItems (api stop.path),
            stop.Refuses item ∧
            (client.events api config now minutes).outcome = .error (.itemKind item.kind) := by
  refine ⟨?_, ?_, ?_, ?_⟩
  · intro owner repo since
    rw [EndsRegularly, outcome_pullRequests]
    exact client.endsRegularly_read_iff
  · intro issue owner repo since
    exact client.endsRegularly_read_iff.2 (Listing.askable_of_after_none rfl)
  · intro issue owner repo since
    exact client.endsRegularly_read_iff
  · intro config now since minutes range
    rw [client.events_of_shift? range]
    refine ⟨?_, ?_⟩
    · intro free
      obtain ⟨parts, contributions, outcome, warned, -⟩ := client.eventsSince_contributions free
      exact ⟨parts, contributions, outcome, warned⟩
    · intro before query after queries free stop stuck
      rw [queries]
      exact client.exists_refused_of_stuck free stuck after

end Client

/-- A repository without an array, and one with a text among its pull requests: the first is
skipped, the second collected, and both are lost with a third one in which a number is listed. -/
theorem endsRegularly_listings_three :
    let client : Client := .ofHost "https://api.github.com/" "token"
    let page : Reply := .answered 200
      ("[\"x\",\x7b\"number\":1,\"html_url\":\"\",\"title\":\"\"," ++
      "\"user\":\x7b\"login\":\"\"\x7d,\"updated_at\":\"2022-10-02\"\x7d]")
    let api : Api := fun path =>
      if path = "repos/o/gone/pulls" then [.answered 200 "\x7b\x7d"]
      else if path = "repos/o/r/pulls" then [page]
      else []
    let spoilt : Api := fun path =>
      if path = "repos/o/bad/pulls" then [.answered 200 "[5]"] else api path
    let gone : PullRequestQuery := ⟨"o", "gone", 0, []⟩
    let bad : PullRequestQuery := ⟨"o", "bad", 0, []⟩
    let watched : PullRequestQuery := ⟨"o", "r", 0, []⟩
    let now : Moment := ⟨738429 * Clock.dayMicros, by decide⟩
    let since : Moment := ⟨738428 * Clock.dayMicros, by decide⟩
    EndsRegularly (client.pullRequests api "o" "gone" since) ∧
      (∃ parts : List (List Event × List LogRecord),
        List.Forall₂ (fun query part => query.Contributes client api since part.1 part.2)
          [gone, watched] parts ∧
        (client.events api ⟨⟨some [gone, watched]⟩⟩ now 1440).outcome =
          .ok (parts.flatMap Prod.fst) ∧
        warnings (client.events api ⟨⟨some [gone, watched]⟩⟩ now 1440).notes =
          parts.flatMap Prod.snd) ∧
      ∃ item ∈ fullItems (spoilt "repos/o/bad/pulls"), (bad.listing since).Refuses item ∧
        (client.events spoilt ⟨⟨some [gone, bad, watched]⟩⟩ now 1440).outcome =
          .error (.itemKind item.kind) := by
  intro client page api spoilt gone bad watched now since
  have range : now.shift? (-(1440 * 60000000)) = some since := by decide
  have unread : (Reply.answered 200 "\x7b\x7d").isFull = false := by cbv
  have read : fullItems [page] = [.string "x", .object [("number", .number (.int 1)),
      ("html_url", .string ""), ("title", .string ""),
      ("user", .object [("login", .string "")]), ("updated_at", .string "2022-10-02")]] := by
    cbv
  have number : fullItems [.answered 200 "[5]"] = [.number (.int 5)] := by cbv
  have goneAskable : gone.Askable api since := Client.askable_of_not_isFull rfl unread
  -- what is listed of the others is the text or an object, wherever it is listed
  have listed : ∀ path, ∀ item ∈ fullItems (api path),
      item = .string "x" ∨ item.isObject = true := by
    intro path item mem
    simp only [api] at mem
    split at mem
    · rw [fullItems, Client.fullPages_of_not_isFull unread] at mem
      cases mem
    · split at mem
      · rw [read, List.mem_pair] at mem
        rcases mem with rfl | rfl
        · exact .inl rfl
        · exact .inr rfl
      · cases mem
  have asked : ∀ listing : Listing, (∀ field since, listing.after = some (field, since) →
      isInfix field.toList "x".toList = false) → listing.Askable api := by
    intro listing apart item mem
    rcases listed _ item mem with rfl | object
    · exact Listing.not_refuses_string apart
    · exact Listing.not_refuses_of_isObject object
  have watchedAskable : watched.Askable api since := by
    refine ⟨asked _ ?_, fun _ _ _ _ _ => asked _ ?_⟩
    · rintro field since ⟨⟩
      cbv
    · rintro field since ⟨⟩
      cbv
  obtain ⟨pulls, -, -, collection⟩ := client.endsRegularly_listings api
  obtain ⟨-, -, -, spoilt_collection⟩ := client.endsRegularly_listings spoilt
  refine ⟨(pulls "o" "gone" since).2 goneAskable.listing, ?_, ?_⟩
  · refine (collection ⟨⟨some [gone, watched]⟩⟩ now since 1440 range).1 ?_
    exact List.forall_mem_cons.2
      ⟨goneAskable.free, List.forall_mem_singleton.2 watchedAskable.free⟩
  · refine (spoilt_collection ⟨⟨some [gone, bad, watched]⟩⟩ now since 1440 range).2
      [gone] bad [watched] rfl ?_ _ (.listing ?_)
    · exact List.forall_mem_singleton.2 (Client.askable_of_not_isFull rfl unread).free
    · intro askable
      refine askable (.number (.int 5)) ?_ ⟨_, _, rfl, .number _⟩
      exact number ▸ List.mem_singleton_self _

/-- **One number, and all is lost.** A number among the pull requests of one repository is no
regular end, and there are no events of another one, that has some alone. -/
theorem exists_not_endsRegularly :
    let client : Client := .ofHost "https://api.github.com/" "token"
    let page : Reply := .answered 200 ("[\x7b\"number\":1,\"html_url\":\"\",\"title\":\"\"," ++
      "\"user\":\x7b\"login\":\"\"\x7d,\"updated_at\":\"2022-10-02\"\x7d]")
    let api : Api := fun path =>
      if path = "repos/o/bad/pulls" then [.answered 200 "[5]"]
      else if path = "repos/o/r/pulls" then [page]
      else []
    let bad : PullRequestQuery := ⟨"o", "bad", 0, []⟩
    let watched : PullRequestQuery := ⟨"o", "r", 0, []⟩
    let now : Moment := ⟨738429 * Clock.dayMicros, by decide⟩
    let since : Moment := ⟨738428 * Clock.dayMicros, by decide⟩
    ¬EndsRegularly (client.pullRequests api "o" "bad" since) ∧
      (client.events api ⟨⟨some [bad, watched]⟩⟩ now 1440).outcome = .error (.itemKind .number) ∧
      ∃ event, (client.events api ⟨⟨some [watched]⟩⟩ now 1440).outcome = .ok [event] := by
  intro client page api bad watched now since
  have range : now.shift? (-(1440 * 60000000)) = some since := by decide
  have number : fullItems [.answered 200 "[5]"] = [.number (.int 5)] := by cbv
  have read : page.items? = some [.object [("number", .number (.int 1)),
      ("html_url", .string ""), ("title", .string ""),
      ("user", .object [("login", .string "")]), ("updated_at", .string "2022-10-02")]] := by
    cbv
  have refused : ¬(bad.listing since).Askable api := by
    intro askable
    refine askable (.number (.int 5)) ?_ ⟨_, _, rfl, .number _⟩
    exact number ▸ List.mem_singleton_self _
  refine ⟨fun regular => ?_, ?_, ?_⟩
  · rw [EndsRegularly, Client.outcome_pullRequests] at regular
    exact refused (client.endsRegularly_read_iff.1 regular)
  · have none : ∀ other ∈ ([] : List PullRequestQuery), ∀ stop, ¬other.StuckAt api since stop := by
      simp
    obtain ⟨item, mem, -, failed⟩ :=
      client.exists_refused_of_stuck none (.listing refused) [watched]
    obtain rfl : item = .number (.int 5) := List.mem_singleton.1 (number ▸ mem)
    rw [client.events_of_shift? range]
    exact failed
  · have others : ∀ path ≠ "repos/o/bad/pulls", path ≠ "repos/o/r/pulls" → api path = [] :=
      fun path bad watched => (if_neg bad).trans (if_neg watched)
    exact ⟨_, client.outcome_events_single ⟨⟨some [watched]⟩⟩ rfl rfl range rfl read (by decide)
      rfl (others _ (by decide) (by decide)) (others _ (by decide) (by decide))⟩

end DocumentFilter.GitHub
