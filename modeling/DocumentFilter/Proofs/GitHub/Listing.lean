import DocumentFilter.GitHub.Source
import DocumentFilter.Proofs.Trace

/-!
# What a listing holds

`DocumentFilter.GitHub.Client.read` walks through the pages of a listing and chooses items
as it goes. Here a listing is described without walking. Its **full** pages are those before
the first page that has no items or cannot be read, and that page, the **last** one, decides:
if it cannot be read the listing is broken, and else its items are those of the full pages
that are young enough. The last page is asked for in any case, so there is one request more
than there are full pages.

A listing that wants to know the age of its items asks each of them for a field, and not every
document can be asked (`DocumentFilter.GitHub.Unaskable`). What is said here of a listing holds
if its items can, objects among them.

What a computation that asks the interface does is said by `DocumentFilter.GitHub.Ends`: the
result that it ends with, or that it ends with an error after which the next repository is
tried, and the requests that it makes meanwhile, without a warning. The relation composes
along `>>=`, so that the proofs follow the computations step by step.

* `DocumentFilter.GitHub.Ends`: how a computation ends;
* `DocumentFilter.GitHub.Listing.Broken`, `DocumentFilter.GitHub.Listing.items`: a listing
  without walking through it;
* `DocumentFilter.GitHub.Listing.Askable`: a listing whose items can be asked;
* `DocumentFilter.GitHub.Client.ends_read`: reading a listing agrees with its description.
-/

namespace DocumentFilter.GitHub

/-! ### Requests and warnings -/

/-- The request that a note is, if it is one. -/
def Note.request? : Note → Option Request
  | .request r => some r
  | .record _ => none

/-- The warning that a note is, if it is one. -/
def Note.warning? : Note → Option LogRecord
  | .request _ => none
  | .record r => if r.isWarning then some r else none

/-- The requests among notes, in order. -/
def requests (notes : List Note) : List Request :=
  notes.filterMap Note.request?

/-- The warnings among notes, in order. -/
def warnings (notes : List Note) : List LogRecord :=
  notes.filterMap Note.warning?

@[simp] theorem requests_append (first next : List Note) :
    requests (first ++ next) = requests first ++ requests next :=
  List.filterMap_append

@[simp] theorem warnings_append (first next : List Note) :
    warnings (first ++ next) = warnings first ++ warnings next :=
  List.filterMap_append

/-! ### How a computation ends -/

/-- **How a computation ends**: with a result, or, where there is none, with an error after
which the next repository is tried; the requests that it makes; and no warning. -/
structure Ends {α : Type} (x : Asking α) (result : Option α) (made : List Request) : Prop where
  outcome : (∃ a, result = some a ∧ x.outcome = .ok a) ∨
    result = none ∧ ∃ error, x.outcome = .error error ∧ error.isSkipped = true
  requests : requests x.notes = made
  warnings : warnings x.notes = []

namespace Ends

variable {α β : Type} {x : Asking α} {f : α → Asking β}

theorem outcome_some {a : α} {made : List Request} (h : Ends x (some a) made) :
    x.outcome = .ok a := by
  rcases h.outcome with ⟨b, same, outcome⟩ | ⟨none, -⟩
  · rw [outcome, Option.some.inj same]
  · cases none

theorem outcome_none {made : List Request} (h : Ends x none made) :
    ∃ error, x.outcome = .error error ∧ error.isSkipped = true := by
  rcases h.outcome with ⟨b, same, -⟩ | ⟨-, skipped⟩
  · cases same
  · exact skipped

theorem pure (a : α) : Ends (Pure.pure a : Asking α) (some a) [] :=
  ⟨.inl ⟨a, rfl, rfl⟩, rfl, rfl⟩

theorem fail {error : Error} (skipped : error.isSkipped = true) :
    Ends (Traced.fail error : Asking α) none [] :=
  ⟨.inr ⟨rfl, error, rfl, skipped⟩, rfl, rfl⟩

/-- A result is handed on, and the requests of what follows come after those before it. -/
theorem bind {a : α} {result : Option β} {made more : List Request}
    (first : Ends x (some a) made) (next : Ends (f a) result more) :
    Ends (x >>= f) result (made ++ more) := by
  rw [Traced.bind_of_ok first.outcome_some]
  refine ⟨next.outcome, ?_, ?_⟩
  · rw [requests_append, first.requests, next.requests]
  · rw [warnings_append, first.warnings, next.warnings, List.append_nil]

/-- What is noted for debugging is neither a request nor a warning. -/
theorem log_debug {result : Option β} {made : List Request} (part message : String)
    {next : Asking β} (h : Ends next result made) :
    Ends (log .debug part message >>= fun _ => next) result made :=
  have logged : Ends (log .debug part message) (some ()) [] :=
    ⟨.inl ⟨(), rfl, rfl⟩, rfl, rfl⟩
  logged.bind h

/-- What is requested first comes first. -/
theorem request {result : Option β} {made : List Request} (request : Request)
    {next : Asking β} (h : Ends next result made) :
    Ends (Traced.note (.request request) >>= fun _ => next) result (request :: made) :=
  have requested : Ends (Traced.note (.request request) : Asking Unit) (some ()) [request] :=
    ⟨.inl ⟨(), rfl, rfl⟩, rfl, rfl⟩
  requested.bind h

/-- An error is the end. -/
theorem bind_none {made : List Request} (first : Ends x none made) :
    Ends (x >>= f) none made := by
  obtain ⟨error, failed, skipped⟩ := first.outcome_none
  rw [Traced.bind_of_error failed]
  exact ⟨.inr ⟨rfl, error, rfl, skipped⟩, first.requests, first.warnings⟩

/-- A result is rewritten, and an error stays one. -/
theorem map {result : Option α} {made : List Request} (h : Ends x result made) (g : α → β) :
    Ends (x >>= fun a => Pure.pure (g a)) (result.map g) made := by
  cases result with
  | none => exact h.bind_none
  | some a =>
    rw [← List.append_nil made]
    exact h.bind (.pure (g a))

end Ends

/-! ### Listings without walking -/

/-- The items of a page. A page with the status of a failure has none; one that is not
reached, or that says something else than an array, cannot be read. -/
def Reply.items? : Reply → Option (List Document)
  | .unreachable _ => none
  | .answered status body =>
    if isFailing status then some []
    else
      match Json.read body with
      | .ok (.array items) => some items
      | _ => none

/-- A page with items, after which another one is asked for. -/
def Reply.isFull (reply : Reply) : Bool :=
  match reply.items? with
  | some (_ :: _) => true
  | _ => false

/-- The pages of a listing that have items, up to the first that has none. -/
def fullPages (replies : List Reply) : List Reply :=
  replies.takeWhile Reply.isFull

/-- The page at which a listing ends. -/
def lastPage (replies : List Reply) : Reply :=
  (replies.dropWhile Reply.isFull).headD .emptyPage

/-- **A document younger** than an instant: an object whose named field is a text that
denotes a later one. -/
def isYounger (field : String) (since : Moment) (doc : Document) : Bool :=
  match doc.field? field with
  | some (.string text) =>
    match Moment.ofText text with
    | .ok moment => since.before moment
    | .error _ => false
  | _ => false

/-- **A document that cannot be asked for a field.** Numbers, booleans and null hold nothing; a
text or an array that holds the name has nothing under it. -/
inductive Unaskable (field : String) : Document → Prop
  | null : Unaskable field .null
  | bool (b : Bool) : Unaskable field (.bool b)
  | number (n : Number) : Unaskable field (.number n)
  | text {s : String} (part : isInfix field.toList s.toList = true) : Unaskable field (.string s)
  | array {items : List Document} (mem : .string field ∈ items) : Unaskable field (.array items)

/-- The items on the full pages. -/
def fullItems (replies : List Reply) : List Document :=
  (fullPages replies).flatMap fun reply => reply.items?.getD []

/-- The requests for consecutive pages of a listing, from one of them on. -/
def Client.pageRequests (client : Client) (listing : Listing) (page count : Nat) :
    List Request :=
  (List.range count).map fun n => client.pageRequest listing (n + page)

namespace Listing

/-- The items that a listing keeps: all, or those that are young enough. -/
def keeps (listing : Listing) (doc : Document) : Bool :=
  match listing.after with
  | none => true
  | some (field, since) => isYounger field since doc

/-- **A listing that cannot be read**, for its last page cannot be. -/
def Broken (api : Api) (listing : Listing) : Prop :=
  (lastPage (api listing.path)).items? = none

/-- **The items of a listing**, in order: those on its full pages that it keeps. -/
def items (api : Api) (listing : Listing) : List Document :=
  ((fullPages (api listing.path)).flatMap fun reply => reply.items?.getD []).filter
    listing.keeps

/-- The requests for the pages of a listing, the last one included. -/
def requests (client : Client) (api : Api) (listing : Listing) : List Request :=
  client.pageRequests listing 1 ((fullPages (api listing.path)).length + 1)

/-- An item of whose age a listing makes a condition, and that cannot be asked for it. -/
def Refuses (listing : Listing) (item : Document) : Prop :=
  ∃ field since, listing.after = some (field, since) ∧ Unaskable field item

/-- **A listing that can be gone through**: every item on its full pages can be asked for what
the listing wants to know. -/
def Askable (api : Api) (listing : Listing) : Prop :=
  ∀ item ∈ fullItems (api listing.path), ¬listing.Refuses item

/-- A listing on whose pages there is nothing but objects. -/
def HasObjects (api : Api) (listing : Listing) : Prop :=
  ∀ reply ∈ api listing.path, ∀ items, reply.items? = some items →
    ∀ item ∈ items, item.isObject = true

end Listing

/-! ### Items -/

/-- An object can be asked for any field. -/
theorem not_unaskable_of_isObject {item : Document} (object : item.isObject = true)
    (field : String) : ¬Unaskable field item := by
  intro unaskable
  cases unaskable <;> cases object

/-- An array can be asked whether it holds the name. -/
theorem holdsName_iff {field : String} {items : List Document} :
    (items.any fun item => match item with
      | .string s => s = field
      | _ => false) = true ↔ .string field ∈ items := by
  rw [List.any_eq_true]
  constructor
  · rintro ⟨item, mem, named⟩
    cases item with
    | string s => exact of_decide_eq_true named ▸ mem
    | _ => cases named
  · intro mem
    exact ⟨_, mem, decide_eq_true rfl⟩

/-- What cannot be asked for a field fails with its kind. -/
theorem ageField_of_unaskable {field : String} {item : Document} (h : Unaskable field item) :
    ageField field item = .error item.kind := by
  cases h with
  | text part => exact if_pos part
  | array mem => exact if_pos (holdsName_iff.2 mem)
  | _ => rfl

/-- What can be asked for a field and is no object does not have it. -/
theorem ageField_of_not_unaskable {field : String} {item : Document} (h : ¬Unaskable field item) :
    ageField field item = .ok (item.field? field) := by
  cases item with
  | null => exact absurd .null h
  | bool b => exact absurd (.bool b) h
  | number n => exact absurd (.number n) h
  | string s => exact if_neg fun part => h (.text part)
  | array items => exact if_neg fun holds => h (.array (holdsName_iff.1 holds))
  | object fields => rfl

theorem outcome_isAfter_of_unaskable {field : String} {item : Document} (h : Unaskable field item)
    (since : Moment) : (isAfter field since item).outcome = .error (.itemKind item.kind) := by
  rw [isAfter, ageField_of_unaskable h]
  rfl

/-- What can be asked is young or not. -/
theorem ends_isAfter {field : String} {item : Document} (askable : ¬Unaskable field item)
    (since : Moment) : Ends (isAfter field since item) (some (isYounger field since item)) [] := by
  rw [isAfter, isYounger, ageField_of_not_unaskable askable]
  cases item.field? field with
  | none => exact .pure false
  | some value =>
    cases value with
    | string text =>
      simp only [Moment.ofDocument]
      cases Moment.ofText text with
      | ok moment => exact .pure _
      | error error => exact Ends.log_debug _ _ (.pure false)
    | _ => exact Ends.log_debug _ _ (.pure false)

/-- What a listing keeps of some items, if they can be asked for what it wants to know. -/
theorem ends_keepItems (listing : Listing) {items : List Document}
    (askable : ∀ item ∈ items, ¬listing.Refuses item) :
    Ends (Client.keepItems listing.after items) (some (items.filter listing.keeps)) [] := by
  induction items with
  | nil => exact .pure []
  | cons item rest ih =>
    obtain ⟨first, askable⟩ := List.forall_mem_cons.1 askable
    have others := ih askable
    rw [Client.keepItems.eq_def, List.filter_cons]
    cases after : listing.after with
    | none =>
      have kept : listing.keeps item = true := by rw [Listing.keeps, after]
      rw [after] at others
      rw [kept]
      exact (Ends.pure true).bind (others.map _)
    | some condition =>
      obtain ⟨field, since⟩ := condition
      have kept : listing.keeps item = isYounger field since item := by rw [Listing.keeps, after]
      have asked : ¬Unaskable field item := fun unaskable => first ⟨field, since, after, unaskable⟩
      rw [after] at others
      rw [kept]
      exact (ends_isAfter asked since).bind (others.map _)

/-- Objects can be asked for everything. -/
theorem Listing.not_refuses_of_isObject {listing : Listing} {item : Document}
    (object : item.isObject = true) : ¬listing.Refuses item := by
  rintro ⟨field, since, -, unaskable⟩
  exact not_unaskable_of_isObject object field unaskable

/-- A text can be asked for what is no part of it. -/
theorem Listing.not_refuses_string {listing : Listing} {s : String}
    (apart : ∀ field since, listing.after = some (field, since) →
      isInfix field.toList s.toList = false) : ¬listing.Refuses (.string s) := by
  rintro ⟨field, since, after, unaskable⟩
  cases unaskable with
  | text part =>
    rw [apart field since after] at part
    cases part

/-- A listing without a condition asks its items for nothing. -/
theorem Listing.askable_of_after_none {api : Api} {listing : Listing}
    (none : listing.after = none) : listing.Askable api := by
  rintro item - ⟨field, since, some, -⟩
  rw [none] at some
  cases some

theorem Listing.HasObjects.askable {api : Api} {listing : Listing}
    (objects : listing.HasObjects api) : listing.Askable api := by
  intro item mem
  obtain ⟨reply, full, mem⟩ := List.mem_flatMap.1 mem
  have listed := List.takeWhile_subset _ full
  cases found : reply.items? with
  | none =>
    rw [found] at mem
    cases mem
  | some items =>
    rw [found] at mem
    exact not_refuses_of_isObject (objects reply listed items found item mem)

/-! ### Pages -/

theorem Reply.exists_items_of_isFull {reply : Reply} (full : reply.isFull = true) :
    ∃ items, reply.items? = some items := by
  rw [Reply.isFull] at full
  cases found : reply.items? with
  | none =>
    rw [found] at full
    cases full
  | some items => exact ⟨items, rfl⟩

namespace Client

variable (client : Client) (listing : Listing)

/-- A page is asked for once, and its items are the result unless there are none. -/
theorem ends_readPage (page : Nat) (reply : Reply) :
    Ends (client.readPage listing page reply)
      (reply.items?.map fun items => if items.isEmpty then none else some items)
      [client.pageRequest listing page] := by
  refine Ends.log_debug _ _ (Ends.request _ ?_)
  cases reply with
  | unreachable reason => exact .fail rfl
  | answered status body =>
    refine Ends.log_debug _ _ ?_
    rw [Reply.items?]
    by_cases failing : isFailing status
    · rw [if_pos failing, if_pos failing]
      exact .pure none
    · rw [if_neg failing, if_neg failing]
      cases Json.read body with
      | error error => exact .fail rfl
      | ok doc =>
        cases doc with
        | array items => exact Ends.log_debug _ _ (.pure _)
        | _ => exact .fail rfl

/-- The pages that are read to have items are the full ones. -/
theorem outcome_readPage_eq_some_iff {page : Nat} {reply : Reply} {items : List Document} :
    (client.readPage listing page reply).outcome = .ok (some items) ↔
      reply.items? = some items ∧ reply.isFull = true := by
  have ends := client.ends_readPage listing page reply
  rw [Reply.isFull]
  cases found : reply.items? with
  | none =>
    rw [found] at ends
    obtain ⟨error, failed, -⟩ := ends.outcome_none
    simp [failed]
  | some others =>
    rw [found] at ends
    cases others with
    | nil => simp [ends.outcome_some]
    | cons item rest => simp [ends.outcome_some]

theorem pageRequests_succ (page count : Nat) :
    client.pageRequests listing page (count + 1) =
      client.pageRequest listing page :: client.pageRequests listing (page + 1) count := by
  rw [pageRequests, List.range_succ_eq_map, List.map_cons, List.map_map, Nat.zero_add]
  refine congrArg _ (List.map_congr_left fun n _ => ?_)
  rw [Function.comp_apply, Nat.succ_eq_add_one, Nat.add_right_comm, Nat.add_assoc]

/-- What the pages from one of them on hold; none if the last of them cannot be read. -/
def itemsFrom (replies : List Reply) : Option (List Document) :=
  (lastPage replies).items?.map fun _ =>
    ((fullPages replies).flatMap fun reply => reply.items?.getD []).filter listing.keeps

section Pages

variable {reply : Reply}

/-- A page that is not full is the last one. -/
theorem fullPages_of_not_isFull (last : reply.isFull = false) (rest : List Reply) :
    fullPages (reply :: rest) = [] := by
  simp [fullPages, last]

theorem fullPages_of_isFull (full : reply.isFull = true) (rest : List Reply) :
    fullPages (reply :: rest) = reply :: fullPages rest := by
  simp [fullPages, full]

theorem lastPage_of_not_isFull (last : reply.isFull = false) (rest : List Reply) :
    lastPage (reply :: rest) = reply := by
  simp [lastPage, last]

theorem lastPage_of_isFull (full : reply.isFull = true) (rest : List Reply) :
    lastPage (reply :: rest) = lastPage rest := by
  simp [lastPage, full]

/-- Behind the last page nothing is left. -/
theorem itemsFrom_of_not_isFull (last : reply.isFull = false) (rest : List Reply) :
    itemsFrom listing (reply :: rest) = reply.items?.map fun _ => [] := by
  rw [itemsFrom, lastPage_of_not_isFull last, fullPages_of_not_isFull last]
  rfl

/-- What a full page holds comes before what those behind it hold. -/
theorem itemsFrom_of_isFull {items : List Document} (found : reply.items? = some items)
    (full : reply.isFull = true) (rest : List Reply) :
    itemsFrom listing (reply :: rest) =
      (itemsFrom listing rest).map (items.filter listing.keeps ++ ·) := by
  rw [itemsFrom, itemsFrom, lastPage_of_isFull full, fullPages_of_isFull full, List.flatMap_cons,
    found, Option.getD_some, List.filter_append, Option.map_map]
  rfl

/-- What is on a full page comes before what is on the full pages behind it. -/
theorem fullItems_of_isFull {items : List Document} (found : reply.items? = some items)
    (full : reply.isFull = true) (rest : List Reply) :
    fullItems (reply :: rest) = items ++ fullItems rest := by
  rw [fullItems, fullPages_of_isFull full, List.flatMap_cons, found, Option.getD_some, fullItems]

end Pages

/-- **The walk through the pages** from one of them on. The induction is on the replies; a
page that is not full is the last, so nothing is left to walk behind it. -/
theorem ends_readFrom {replies : List Reply}
    (askable : ∀ item ∈ fullItems replies, ¬listing.Refuses item) (page : Nat) :
    Ends (client.readFrom listing page replies) (itemsFrom listing replies)
      (client.pageRequests listing page ((fullPages replies).length + 1)) := by
  induction replies generalizing page with
  | nil =>
    have last := client.ends_readPage listing page .emptyPage
    have done : itemsFrom listing [] = some [] := rfl
    rw [readFrom, done, pageRequests_succ]
    exact last.bind (.pure [])
  | cons reply rest ih =>
    have read := client.ends_readPage listing page reply
    rw [readFrom, pageRequests_succ]
    cases found : reply.items? with
    | none =>
      have last : reply.isFull = false := by rw [Reply.isFull, found]
      rw [found] at read
      rw [itemsFrom_of_not_isFull listing last, found, fullPages_of_not_isFull last]
      exact read.bind_none
    | some items =>
      rw [found] at read
      cases items with
      | nil =>
        have last : reply.isFull = false := by rw [Reply.isFull, found]
        rw [itemsFrom_of_not_isFull listing last, found, fullPages_of_not_isFull last]
        exact read.bind (.pure [])
      | cons item items =>
        have full : reply.isFull = true := by rw [Reply.isFull, found]
        rw [fullItems_of_isFull found full, List.forall_mem_append] at askable
        have kept := ends_keepItems listing askable.1
        have more := ih askable.2 (page + 1)
        rw [itemsFrom_of_isFull listing found full, fullPages_of_isFull full, List.length_cons]
        exact read.bind (kept.bind (more.map _))

/-- **Reading a listing** that can be gone through ends with its items unless it is broken, and
asks for its pages up to the last. -/
theorem ends_read {api : Api} {listing : Listing} (askable : listing.Askable api) :
    (listing.Broken api → Ends (client.read api listing) none (listing.requests client api)) ∧
      (¬listing.Broken api → Ends (client.read api listing) (some (listing.items api))
        (listing.requests client api)) := by
  have ends : Ends (client.read api listing) (itemsFrom listing (api listing.path))
      (listing.requests client api) := client.ends_readFrom listing askable 1
  have result : itemsFrom listing (api listing.path) =
      (lastPage (api listing.path)).items?.map fun _ => listing.items api := rfl
  rw [result] at ends
  constructor
  · intro broken
    rw [Listing.Broken] at broken
    rwa [broken] at ends
  · intro whole
    obtain ⟨items, last⟩ := Option.ne_none_iff_exists'.1 whole
    rwa [last] at ends

end Client

end DocumentFilter.GitHub
