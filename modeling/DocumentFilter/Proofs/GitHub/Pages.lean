import DocumentFilter.Proofs.GitHub.Failures
import Mathlib.Order.Bounds.Defs

/-!
# Listings page by page

Nothing says beforehand how many pages a listing has. It is asked for one page after the other,
until one of them stops it, and there are five ways to do so
(`DocumentFilter.GitHub.Reply.Stops`). The status of a failure and an empty array are regular
ends: what was on the pages before counts. No reply, a body that is not JSON and a body that is no
array are failures: there is an error, and what was on the pages before is lost.

So let the interface answer whatever it likes, page after page and without an end of its own. All
that matters is which page is the first that stops the listing. No page behind it is asked for,
every page up to it is asked for once, and a page is not passed over because none of its items is
young enough: the walk looks at what a page holds, and not at what is kept of it.

The proofs put the first page that stops a listing into the place of the last page of
`DocumentFilter.GitHub.Client.ends_read` (`DocumentFilter.GitHub.fullPages_of_stops`). That lemma
leaves open with which error a listing fails, and this is what is added by an induction on the
pages.

* `DocumentFilter.GitHub.Reply.Stops`: the pages that stop a listing;
* `DocumentFilter.GitHub.ListingCall`: the three listings, as one family;
* `DocumentFilter.GitHub.Api.Serves`: an interface that answers so, up to a page;
* `DocumentFilter.GitHub.ListingCall.pages_of_run`: **what is asked for, and what comes of it**.
-/

namespace DocumentFilter.GitHub

/-! ### Pages that stop a listing -/

namespace Reply

/-- **The pages that stop a listing**: regularly, or with the error of the address that was asked.
A body counts only where the status is none of a failure. -/
inductive Stops (endpoint : String) : Reply → Option Error → Prop
  | failing {status : Int} (body : String) (failing : 400 ≤ status ∧ status < 600) :
    Stops endpoint (.answered status body) none
  | empty {status : Int} {body : String} (passing : ¬(400 ≤ status ∧ status < 600))
    (read : Json.read body = .ok (.array [])) : Stops endpoint (.answered status body) none
  | unreachable (reason : String) :
    Stops endpoint (.unreachable reason) (some (.unreachable endpoint reason))
  | malformed {status : Int} {body : String} {error : Json.Error}
    (passing : ¬(400 ≤ status ∧ status < 600)) (read : Json.read body = .error error) :
    Stops endpoint (.answered status body) (some (.malformed endpoint error))
  | notArray {status : Int} {body : String} {doc : Document}
    (passing : ¬(400 ≤ status ∧ status < 600)) (read : Json.read body = .ok doc)
    (other : ∀ items, doc ≠ .array items) :
    Stops endpoint (.answered status body) (some (.notArray endpoint))

/-- What a page holds; nothing where it holds no array, or is not reached. -/
def content (reply : Reply) : List Document :=
  reply.items?.getD []

theorem isFailing_iff {status : Int} : isFailing status = true ↔ 400 ≤ status ∧ status < 600 := by
  simp [isFailing]

/-- A page that is answered and not a failure holds what its body says. -/
theorem items?_of_passing {status : Int} (passing : ¬(400 ≤ status ∧ status < 600))
    (body : String) :
    (answered status body).items? = match Json.read body with
      | .ok (.array items) => some items
      | _ => none :=
  if_neg fun failing => passing (isFailing_iff.1 failing)

section Stops

variable {endpoint : String} {reply : Reply} {failure : Option Error}

/-- A page that stops a listing has no items, and cannot be read where it is a failure. -/
theorem Stops.items?_eq (stops : reply.Stops endpoint failure) :
    reply.items? = if failure.isSome then none else some [] := by
  cases stops with
  | failing body failing => exact if_pos (isFailing_iff.2 failing)
  | empty passing read => rw [items?_of_passing passing, read]; rfl
  | unreachable reason => rfl
  | malformed passing read => rw [items?_of_passing passing, read]; rfl
  | notArray passing read other =>
    rw [items?_of_passing passing, read]
    split
    · rename_i items same
      cases same
      exact absurd rfl (other items)
    · rfl

theorem Stops.isFull_eq_false (stops : reply.Stops endpoint failure) : reply.isFull = false := by
  rw [isFull, stops.items?_eq]
  cases failure <;> rfl

theorem Stops.isVendor {error : Error} (stops : reply.Stops endpoint (some error)) :
    error.isVendor = true := by
  cases stops <;> rfl

/-- **There is no sixth way**: a page that does not stop a listing has items. -/
theorem exists_stops_of_isFull_eq_false (endpoint : String) (last : reply.isFull = false) :
    ∃ failure, reply.Stops endpoint failure := by
  cases reply with
  | unreachable reason => exact ⟨_, .unreachable reason⟩
  | answered status body =>
    by_cases failing : 400 ≤ status ∧ status < 600
    · exact ⟨_, .failing body failing⟩
    rw [isFull, items?_of_passing failing] at last
    cases read : Json.read body with
    | error error => exact ⟨_, .malformed failing read⟩
    | ok doc =>
      by_cases array : ∃ items, doc = .array items
      · obtain ⟨items, rfl⟩ := array
        rw [read] at last
        cases items with
        | nil => exact ⟨_, .empty failing read⟩
        | cons item rest => cases last
      · exact ⟨_, .notArray failing read fun items same => array ⟨items, same⟩⟩

theorem exists_stops_iff : (∃ failure, reply.Stops endpoint failure) ↔ reply.isFull = false :=
  ⟨fun ⟨_, stops⟩ => stops.isFull_eq_false, exists_stops_of_isFull_eq_false endpoint⟩

end Stops

end Reply

/-! ### Interfaces that go on -/

/-- **An interface that answers so**, up to a page: pages are counted from 1, and what lies behind
the replies that are listed is empty. -/
def Api.Serves (api : Api) (path : String) (pages : Nat → Reply) (last : Nat) : Prop :=
  ∀ page, 1 ≤ page → page ≤ last → (api path).getD (page - 1) .emptyPage = pages page

/-- Whatever the pages are, an interface can answer so up to any of them. -/
theorem Api.exists_serves (path : String) (pages : Nat → Reply) (last : Nat) :
    ∃ api : Api, api.Serves path pages last := by
  refine ⟨fun _ => (List.range last).map fun n => pages (n + 1), fun page first upto => ?_⟩
  have listed : page - 1 < last := by omega
  have counted : page - 1 + 1 = page := by omega
  simp [List.getD_eq_getElem?_getD, listed, counted]

/-- The full pages are those before the first that stops the listing. The induction is on their
number; behind the replies that are listed no page is full. -/
theorem fullPages_of_stops {replies : List Reply} {count : Nat}
    (full : ∀ n < count, (replies.getD n .emptyPage).isFull = true)
    (last : (replies.getD count .emptyPage).isFull = false) :
    fullPages replies = (List.range count).map (replies.getD · .emptyPage) ∧
      lastPage replies = replies.getD count .emptyPage := by
  induction count generalizing replies with
  | zero =>
    cases replies with
    | nil => exact ⟨rfl, rfl⟩
    | cons reply rest =>
      have here : reply.isFull = false := last
      exact ⟨Client.fullPages_of_not_isFull here rest, Client.lastPage_of_not_isFull here rest⟩
  | succ count ih =>
    cases replies with
    | nil =>
      -- behind the replies there are empty pages only
      cases full 0 count.succ_pos
    | cons reply rest =>
      have here : reply.isFull = true := full 0 count.succ_pos
      obtain ⟨before, behind⟩ := ih (fun n upto => full (n + 1) (by omega)) last
      constructor
      · rw [Client.fullPages_of_isFull here, before, List.range_succ_eq_map, List.map_cons,
          List.map_map]
        rfl
      · exact (Client.lastPage_of_isFull here rest).trans behind

/-- The replies of an interface up to the first page that stops a listing: the pages before are the
full ones, or one of them would be the first. -/
theorem Api.Serves.fullPages_eq {api : Api} {path endpoint : String} {pages : Nat → Reply}
    {last : Nat} (serves : api.Serves path pages last)
    (first : IsLeast {page | 1 ≤ page ∧ ∃ failure, (pages page).Stops endpoint failure} last) :
    fullPages (api path) = (List.range' 1 (last - 1)).map pages ∧
      lastPage (api path) = pages last := by
  obtain ⟨⟨positive, stops⟩, least⟩ := first
  obtain ⟨count, rfl⟩ : ∃ count, last = count + 1 := ⟨last - 1, by omega⟩
  have served : ∀ n ≤ count, (api path).getD n .emptyPage = pages (n + 1) :=
    fun n upto => serves (n + 1) (by omega) (by omega)
  have full : ∀ n < count, ((api path).getD n .emptyPage).isFull = true := by
    -- a page that is not full stops the listing, and would do so earlier
    intro n before
    by_contra ended
    rw [Bool.not_eq_true, served n before.le, ← Reply.exists_stops_iff] at ended
    have behind := least ⟨by omega, ended⟩
    omega
  have ended : ((api path).getD count .emptyPage).isFull = false := by
    rw [served count le_rfl]
    exact Reply.exists_stops_iff.1 stops
  obtain ⟨before, at_last⟩ := fullPages_of_stops full ended
  refine ⟨?_, at_last.trans (served count le_rfl)⟩
  rw [before, Nat.add_sub_cancel, List.range'_eq_map_range, List.map_map]
  refine List.map_congr_left fun n listed => ?_
  rw [Function.comp_apply, Nat.add_comm]
  exact served n (List.mem_range.1 listed).le

namespace Client

variable (client : Client) (listing : Listing)

/-- A page that is a failure is read with its error. -/
theorem outcome_readPage_of_stops {reply : Reply} {error : Error}
    (stops : reply.Stops (client.endpoint listing) (some error)) (page : Nat) :
    (client.readPage listing page reply).outcome = .error error := by
  cases stops with
  | unreachable reason => rfl
  | malformed passing read =>
    have passing := mt Reply.isFailing_iff.1 passing
    simp [readPage, log, passing, read, Traced.fail, Except.bind]
  | @notArray _ _ doc passing read other =>
    have passing := mt Reply.isFailing_iff.1 passing
    cases doc with
    | array items => exact absurd rfl (other items)
    | _ => simp [readPage, log, passing, read, Traced.fail, Except.bind]

/-- **The error of a listing** is the one of its last page. The induction is on the replies; what
is kept of the pages before is read, but there is nobody to return it to. -/
theorem outcome_readFrom_of_stops {replies : List Reply}
    (askable : ∀ item ∈ fullItems replies, ¬listing.Refuses item) {error : Error}
    (stops : (lastPage replies).Stops (client.endpoint listing) (some error)) (page : Nat) :
    (client.readFrom listing page replies).outcome = .error error := by
  induction replies generalizing page with
  | nil => cases stops.items?_eq
  | cons reply rest ih =>
    rw [readFrom]
    by_cases full : reply.isFull = true
    · rw [lastPage_of_isFull full] at stops
      obtain ⟨items, found⟩ := reply.exists_items_of_isFull full
      rw [fullItems_of_isFull found full, List.forall_mem_append] at askable
      have read : (client.readPage listing page reply).outcome = .ok (some items) :=
        (client.outcome_readPage_eq_some_iff listing).2 ⟨found, full⟩
      rw [Traced.outcome_bind_of_ok read,
        Traced.outcome_bind_of_ok (ends_keepItems listing askable.1).outcome_some]
      exact Traced.outcome_bind_of_error (ih askable.2 stops (page + 1)) _
    · rw [lastPage_of_not_isFull (Bool.not_eq_true _ ▸ full)] at stops
      exact Traced.outcome_bind_of_error (client.outcome_readPage_of_stops listing stops page) _

end Client

/-! ### The three listings -/

/-- **The three listings that the client can be asked for.** -/
inductive ListingCall
  | pullRequests (owner repo : String)
  | issueComments (issue : Int) (owner repo : String)
  | issueEvents (issue : Int) (owner repo : String)

namespace ListingCall

/-- The path under which a listing is found. -/
def path : ListingCall → String
  | pullRequests owner repo => "repos/" ++ owner ++ "/" ++ repo ++ "/pulls"
  | issueComments issue owner repo =>
    "repos/" ++ owner ++ "/" ++ repo ++ "/issues/" ++ Decimal.intString issue ++ "/comments"
  | issueEvents issue owner repo =>
    "repos/" ++ owner ++ "/" ++ repo ++ "/issues/" ++ Decimal.intString issue ++ "/events"

/-- The parameters of every page, its number apart: comments are chosen by the interface. -/
def params (since : Moment) : ListingCall → List (String × String)
  | issueComments _ _ _ => [("since", since.utcText)]
  | _ => []

/-- The field that tells the age of an item, where the client chooses. -/
def ageField? : ListingCall → Option String
  | pullRequests _ _ => some "updated_at"
  | issueComments _ _ _ => none
  | issueEvents _ _ _ => some "created_at"

/-- **The items that are wanted**: all comments, and of the others those with a timestamp that is
later. -/
def Wants (since : Moment) (call : ListingCall) (item : Document) : Prop :=
  ∀ field, call.ageField? = some field → ∃ text moment,
    item.field? field = some (.string text) ∧ Moment.ofText text = .ok moment ∧
      since.before moment = true

/-- The address of a listing. -/
def address (client : Client) (call : ListingCall) : String :=
  client.host ++ "/" ++ call.path

/-- The request for a page, which is not redirected. -/
def request (client : Client) (since : Moment) (call : ListingCall) (page : Nat) : Request where
  url := call.address client
  params := call.params since ++ [("page", Decimal.natString page)]
  timeout := 30
  redirects := false

/-- What the client does. -/
def run (client : Client) (api : Api) (since : Moment) : ListingCall → Asking (List Document)
  | pullRequests owner repo => client.pullRequests api owner repo since
  | issueComments issue owner repo => client.issueComments api issue owner repo since
  | issueEvents issue owner repo => client.issueEvents api issue owner repo since

/-- What the client reads. -/
def listing (since : Moment) (call : ListingCall) : Listing :=
  ⟨call.path, call.params since, call.ageField?.map (·, since)⟩

variable (client : Client) (since : Moment) (call : ListingCall)

theorem wants_iff (item : Document) :
    call.Wants since item ↔ (call.listing since).keeps item = true := by
  rw [Wants, Listing.keeps, listing]
  cases call.ageField? with
  | none => simp
  | some field => simpa using isYounger_eq_true_iff.symm

instance : DecidablePred (call.Wants since) :=
  fun item => decidable_of_iff _ (call.wants_iff since item).symm

/-- The pages are asked for by their numbers. -/
theorem pageRequests_listing (count : Nat) :
    client.pageRequests (call.listing since) 1 count =
      (List.range' 1 count).map (call.request client since) := by
  rw [Client.pageRequests, List.range'_eq_map_range, List.map_map]
  refine List.map_congr_left fun n _ => ?_
  rw [Nat.add_comm]
  rfl

/-- A call ends as the reading of its listing does: pull requests are counted in the log, but
nothing comes of it. -/
theorem ends_run {api : Api} {result : Option (List Document)} {made : List Request}
    (ends : Ends (client.read api (call.listing since)) result made) :
    Ends (call.run client api since) result made := by
  cases call with
  | pullRequests owner repo =>
    exact @Client.ends_pullRequests ⟨owner, repo, 0, []⟩ client api since result made ends
  | issueComments issue owner repo => exact ends
  | issueEvents issue owner repo => exact ends

theorem outcome_run (api : Api) :
    (call.run client api since).outcome = (client.read api (call.listing since)).outcome := by
  cases call with
  | pullRequests owner repo => exact client.outcome_pullRequests owner repo since
  | issueComments issue owner repo => rfl
  | issueEvents issue owner repo => rfl

section Served

variable {client since call} {api : Api} {pages : Nat → Reply} {last : Nat}
  (serves : api.Serves call.path pages last)
  (first : IsLeast {page | 1 ≤ page ∧
    ∃ failure, (pages page).Stops (call.address client) failure} last)
include serves first

/-- What a listing goes through is what the pages hold that are before the first to stop it. -/
theorem fullItems_of_serves :
    fullItems (api call.path) =
      (List.range' 1 (last - 1)).flatMap fun page => (pages page).content := by
  rw [fullItems, (serves.fullPages_eq first).1, List.flatMap_map]
  rfl

theorem items_of_serves :
    (call.listing since).items api =
      ((List.range' 1 (last - 1)).flatMap fun page => (pages page).content).filter
        (call.Wants since ·) := by
  rw [← fullItems_of_serves serves first]
  refine List.filter_congr fun item _ => ?_
  rw [Bool.eq_iff_iff, decide_eq_true_iff]
  exact (call.wants_iff since item).symm

theorem requests_of_serves :
    (call.listing since).requests client api =
      (List.range' 1 last).map (call.request client since) := by
  have counted : (fullPages (api call.path)).length + 1 = last := by
    rw [(serves.fullPages_eq first).1, List.length_map, List.length_range',
      Nat.sub_add_cancel first.1.1]
  rw [← pageRequests_listing, ← counted]
  rfl

theorem askable_of_serves (objects : ∀ page, 1 ≤ page → page < last →
      ∀ item ∈ (pages page).content, item.isObject = true) :
    (call.listing since).Askable api := by
  intro item mem
  change item ∈ fullItems (api call.path) at mem
  rw [fullItems_of_serves serves first] at mem
  obtain ⟨page, listed, mem⟩ := List.mem_flatMap.1 mem
  rw [List.mem_range'_1] at listed
  exact Listing.not_refuses_of_isObject (objects page listed.1 (by omega) item mem)

/-- Whether a listing is broken is up to the page that stops it. -/
theorem broken_iff_of_serves :
    (call.listing since).Broken api ↔ (pages last).items? = none := by
  rw [← (serves.fullPages_eq first).2]
  rfl

end Served

/-- **What a listing asks for, and what comes of it**, where some page is the first that stops it
and the pages before hold objects. The pages up to this one are asked for, once each and in order.
If it is a regular end, all wanted items of the pages before are returned, page after page and
item after item; if it is a failure, there is an error of the interface and nothing is returned.
The pages behind it are nowhere in this, be there finitely many or not. -/
theorem pages_of_run (pages : Nat → Reply) (last : Nat)
    (first : IsLeast {page | 1 ≤ page ∧
      ∃ failure, (pages page).Stops (call.address client) failure} last)
    (objects : ∀ page, 1 ≤ page → page < last →
      ∀ item ∈ (pages page).content, item.isObject = true) :
    (∃ api : Api, api.Serves call.path pages last) ∧
      ∀ api : Api, api.Serves call.path pages last →
        requests (call.run client api since).notes =
          (List.range' 1 last).map (call.request client since) ∧
        ((pages last).Stops (call.address client) none →
          (call.run client api since).outcome =
            .ok (((List.range' 1 (last - 1)).flatMap fun page => (pages page).content).filter
              (call.Wants since ·))) ∧
        ∀ error, (pages last).Stops (call.address client) (some error) →
          (call.run client api since).outcome = .error error ∧ error.isVendor = true := by
  refine ⟨Api.exists_serves call.path pages last, fun api serves => ?_⟩
  have askable : (call.listing since).Askable api := askable_of_serves serves first objects
  obtain ⟨broken, whole⟩ := client.ends_read askable
  rw [requests_of_serves serves first, broken_iff_of_serves serves first] at broken whole
  refine ⟨?_, fun stops => ?_, fun error stops => ⟨?_, stops.isVendor⟩⟩
  · -- with a result or an error, the same pages are asked for
    by_cases unread : (pages last).items? = none
    · exact (call.ends_run client since (broken unread)).requests
    · exact (call.ends_run client since (whole unread)).requests
  · have read : (pages last).items? ≠ none := by simp [stops.items?_eq]
    rw [(call.ends_run client since (whole read)).outcome_some, items_of_serves serves first]
  · rw [call.outcome_run]
    rw [← (serves.fullPages_eq first).2] at stops
    exact client.outcome_readFrom_of_stops (call.listing since) askable stops 1

/-- Two pages with an item each, the first of which is too old, and whatever comes third: with the
status of a failure it leaves what is wanted of the two, with an object it leaves nothing. The
pages from the fourth on are like the second, and none of them is asked for. -/
theorem pages_of_run_three :
    let client : Client := .ofHost "https://api.github.com/" "token"
    let since : Moment := ⟨738428 * Clock.dayMicros, by decide⟩
    let pulls : ListingCall := .pullRequests "o" "r"
    let comments : ListingCall := .issueComments 7 "o" "r"
    let old : Document := .object [("updated_at", .string "2022-09-30")]
    let young : Document := .object [("updated_at", .string "2022-10-02")]
    let first : Reply := .answered 200 "[\x7b\"updated_at\":\"2022-09-30\"\x7d]"
    let second : Reply := .answered 200 "[\x7b\"updated_at\":\"2022-10-02\"\x7d]"
    let api : Reply → Api := fun third _ => [first, second, third, second]
    let missing : Reply := .answered 404 "not found"
    let object : Reply := .answered 200 "\x7b\x7d"
    requests (pulls.run client (api missing) since).notes =
        [pulls.request client since 1, pulls.request client since 2, pulls.request client since 3] ∧
      (pulls.run client (api missing) since).outcome = .ok [young] ∧
      (comments.run client (api missing) since).outcome = .ok [old, young] ∧
      requests (pulls.run client (api object) since).notes =
        [pulls.request client since 1, pulls.request client since 2, pulls.request client since 3] ∧
      (pulls.run client (api object) since).outcome =
        .error (.notArray "https://api.github.com/repos/o/r/pulls") := by
  intro client since pulls comments old young first second api missing object
  let pages : Reply → Nat → Reply := fun third page =>
    if page = 1 then first else if page = 3 then third else second
  have full : first.isFull = true ∧ second.isFull = true := by cbv
  have held : first.content = [old] ∧ second.content = [young] := ⟨by cbv, by cbv⟩
  have late : pulls.Wants since young := (pulls.wants_iff since young).2 (by decide)
  have early : ¬pulls.Wants since old := mt (pulls.wants_iff since old).1 (by decide)
  have both : ∀ doc, comments.Wants since doc := fun doc => (comments.wants_iff since doc).2 rfl
  have before : ∀ third page, 1 ≤ page → page < 3 →
      pages third page = first ∨ pages third page = second := by
    intro third page positive upto
    have counted : page = 1 ∨ page = 2 := by omega
    rcases counted with rfl | rfl
    · exact .inl rfl
    · exact .inr rfl
  have least : ∀ {third failure endpoint}, third.Stops endpoint failure →
      IsLeast {page | 1 ≤ page ∧ ∃ failure, (pages third page).Stops endpoint failure} 3 := by
    intro third failure endpoint stops
    refine ⟨⟨by decide, failure, stops⟩, ?_⟩
    rintro page ⟨positive, other, earlier⟩
    by_contra upto
    have unfull := earlier.isFull_eq_false
    rcases before third page positive (by omega) with same | same
    · rw [same, full.1] at unfull
      cases unfull
    · rw [same, full.2] at unfull
      cases unfull
  have objects : ∀ third page, 1 ≤ page → page < 3 →
      ∀ item ∈ (pages third page).content, item.isObject = true := by
    intro third page positive upto item mem
    rcases before third page positive upto with same | same
    · rw [same, held.1, List.mem_singleton] at mem
      rw [mem]
      rfl
    · rw [same, held.2, List.mem_singleton] at mem
      rw [mem]
      rfl
  have serves : ∀ third path, (api third).Serves path (pages third) 3 := by
    intro third path page positive upto
    have counted : page = 1 ∨ page = 2 ∨ page = 3 := by omega
    rcases counted with rfl | rfl | rfl <;> rfl
  have failing : ∀ endpoint, missing.Stops endpoint none := fun _ => .failing _ (by decide)
  have empty : Json.read "\x7b\x7d" = .ok (.object []) := by cbv
  have broken : object.Stops (pulls.address client) (some (.notArray (pulls.address client))) :=
    .notArray (by decide) empty (by simp)
  obtain ⟨-, listed⟩ := pulls.pages_of_run client since _ 3 (least (failing _)) (objects missing)
  obtain ⟨-, commented⟩ :=
    comments.pages_of_run client since _ 3 (least (failing _)) (objects missing)
  obtain ⟨-, refused⟩ := pulls.pages_of_run client since _ 3 (least broken) (objects object)
  obtain ⟨asked, returned, -⟩ := listed _ (serves missing _)
  obtain ⟨-, all, -⟩ := commented _ (serves missing _)
  obtain ⟨askedAgain, -, failed⟩ := refused _ (serves object _)
  refine ⟨asked, (returned (failing _)).trans ?_, (all (failing _)).trans ?_, askedAgain, ?_⟩
  · change Except.ok ((first.content ++ (second.content ++ [])).filter _) = _
    rw [held.1, held.2]
    simp [early, late]
  · change Except.ok ((first.content ++ (second.content ++ [])).filter _) = _
    rw [held.1, held.2]
    simp [both]
  · exact (failed _ broken).1

end ListingCall

end DocumentFilter.GitHub
