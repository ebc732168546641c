import DocumentFilter.Proofs.Filter.Condition
import DocumentFilter.Proofs.Query.Grammar

/-!
# Lists of filters

A list of filters is matched in two passes: the first reads every query, the second
evaluates the filters and stops at the first that does not match. Explaining a filter reads
and evaluates that one alone. The two agree: a list matches exactly if explaining each of
its filters finds a match, and it fails exactly with the first malformed query, wherever
evaluation would have stopped.

The first pass settles everything about failures, for evaluation has none
(`DocumentFilter.evaluate_eq`). A list is therefore a conjunction, and what is known of
conjunctions – that their order does not matter, and that a list of two parts is the
conjunction of the parts – holds of lists of filters whose queries can be read.

* `DocumentFilter.matchesAll_eq_error_iff`, `DocumentFilter.exists_matchesAll`: failures and
  verdicts;
* `DocumentFilter.toOption_matchesAll_perm`, `DocumentFilter.matchesAll_append`:
  permutations and concatenations.
-/

namespace DocumentFilter

/-! ### One filter -/

namespace Filter

/-- A filter whose query can be read. -/
def WellFormed (filter : Filter) : Prop :=
  ∃ path, Query.parse filter.query = .ok path

/-- A filter for which explaining it on a document finds a match. -/
def MatchesOn (doc : Document) (filter : Filter) : Prop :=
  ∃ outcome, (explain doc filter).outcome = .ok outcome ∧ outcome.verdict.matched = true

theorem path_eq_ok {filter : Filter} {path : Query} (h : Query.parse filter.query = .ok path) :
    filter.path = .ok path := by
  rw [Filter.path, h]
  rfl

theorem path_eq_error {filter : Filter} {error : Query.Error}
    (h : Query.parse filter.query = .error error) : filter.path = .error (.query error) := by
  rw [Filter.path, h]
  rfl

end Filter

/-- The outcome of a filter whose query was read is never a failure. -/
theorem outcome_outcome (doc : Document) (filter : Filter) (path : Query) :
    (outcome doc filter path).outcome =
      .ok ⟨filter, path.resolve doc,
        filter.operation.verdict (path.resolve doc) filter.values⟩ := by
  simp [outcome, evaluateNoting, evaluate_eq, Except.bind]

/-- Explaining a filter whose query can be read finds the verdict on what the query leads to. -/
theorem outcome_explain {filter : Filter} {path : Query} (h : Query.parse filter.query = .ok path)
    (doc : Document) :
    (explain doc filter).outcome =
      .ok ⟨filter, path.resolve doc,
        filter.operation.verdict (path.resolve doc) filter.values⟩ := by
  simp [explain, Filter.path_eq_ok h, outcome_outcome, Except.bind]

theorem matchesOn_iff {doc : Document} {filter : Filter} {path : Query}
    (h : Query.parse filter.query = .ok path) :
    filter.MatchesOn doc ↔
      (filter.operation.verdict (path.resolve doc) filter.values).matched = true := by
  have explained := outcome_explain h doc
  constructor
  · rintro ⟨found, same, matched⟩
    rw [explained] at same
    cases same
    exact matched
  · intro matched
    exact ⟨_, explained, matched⟩

/-- A filter that matches somewhere has a query that can be read. -/
theorem Filter.MatchesOn.wellFormed {doc : Document} {filter : Filter}
    (h : filter.MatchesOn doc) : filter.WellFormed := by
  obtain ⟨outcome, explained, -⟩ := h
  cases parsed : Query.parse filter.query with
  | ok path => exact ⟨path, parsed⟩
  | error error =>
    rw [explain, Filter.path_eq_error parsed] at explained
    cases explained

/-! ### Reading the queries -/

/-- Either all queries can be read, or one of them is the first that cannot. -/
theorem wellFormed_or_first_malformed (filters : List Filter) :
    (∀ filter ∈ filters, filter.WellFormed) ∨
      ∃ before filter after error, filters = before ++ filter :: after ∧
        (∀ earlier ∈ before, earlier.WellFormed) ∧
          Query.parse filter.query = .error error := by
  induction filters with
  | nil => exact .inl fun _ mem => absurd mem List.not_mem_nil
  | cons filter rest ih =>
    cases parsed : Query.parse filter.query with
    | error error =>
      exact .inr ⟨[], filter, rest, error, rfl, fun _ mem => absurd mem List.not_mem_nil, parsed⟩
    | ok path =>
      have first : filter.WellFormed := ⟨path, parsed⟩
      rcases ih with all | ⟨before, filter', after, error, rfl, earlier, malformed⟩
      · exact .inl (List.forall_mem_cons.2 ⟨first, all⟩)
      · exact .inr ⟨filter :: before, filter', after, error, rfl,
          List.forall_mem_cons.2 ⟨first, earlier⟩, malformed⟩

/-- **The first malformed query** is the failure, whatever comes after it. -/
theorem readQueries_append_error {before after : List Filter} {filter : Filter}
    {error : Query.Error} (earlier : ∀ earlier ∈ before, earlier.WellFormed)
    (malformed : Query.parse filter.query = .error error) :
    readQueries (before ++ filter :: after) = .error (.query error) := by
  induction before with
  | nil =>
    rw [List.nil_append, readQueries, Filter.path_eq_error malformed]
    rfl
  | cons first before ih =>
    obtain ⟨⟨path, parsed⟩, earlier⟩ := List.forall_mem_cons.1 earlier
    rw [List.cons_append, readQueries, Filter.path_eq_ok parsed, ih earlier]
    rfl

/-- Queries that can be read are, and then the filters are evaluated up to the first that
does not match. -/
theorem exists_readQueries (doc : Document) {filters : List Filter}
    (wellFormed : ∀ filter ∈ filters, filter.WellFormed) :
    ∃ paths matched, readQueries filters = .ok paths ∧
      (matchesEach doc paths).outcome = .ok matched ∧
        (matched = true ↔ ∀ filter ∈ filters, filter.MatchesOn doc) := by
  induction filters with
  | nil => exact ⟨[], true, rfl, rfl, by simp⟩
  | cons filter rest ih =>
    obtain ⟨⟨path, parsed⟩, wellFormed⟩ := List.forall_mem_cons.1 wellFormed
    obtain ⟨paths, matched, read, evaluated, all⟩ := ih wellFormed
    have first : filter.MatchesOn doc ↔
        (filter.operation.verdict (path.resolve doc) filter.values).matched = true :=
      matchesOn_iff parsed
    have read_all : readQueries (filter :: rest) = .ok ((filter, path) :: paths) := by
      rw [readQueries, Filter.path_eq_ok parsed, read]
      rfl
    -- Evaluation goes on after a match only, but what it leaves out cannot change the verdict.
    by_cases holds : (filter.operation.verdict (path.resolve doc) filter.values).matched
    · refine ⟨_, matched, read_all, ?_, ?_⟩
      · simp [matchesEach, outcome_outcome, Except.bind, holds, evaluated]
      · rw [List.forall_mem_cons, all]
        exact ⟨fun h => ⟨first.2 holds, h⟩, And.right⟩
    · refine ⟨_, false, read_all, ?_, ?_⟩
      · simp [matchesEach, outcome_outcome, Except.bind, holds]
      · rw [List.forall_mem_cons, first]
        exact iff_of_false Bool.false_ne_true fun h => holds h.1

/-! ### Lists of filters -/

section Lists

variable (doc : Document) {filters others : List Filter}

theorem outcome_matchesAll (filters : List Filter) :
    (matchesAll doc filters).outcome =
      (readQueries filters).bind fun paths => (matchesEach doc paths).outcome := by
  simp [matchesAll]

/-- A list whose queries can be read has a verdict, the conjunction of its filters. -/
theorem exists_matchesAll (wellFormed : ∀ filter ∈ filters, filter.WellFormed) :
    ∃ matched, (matchesAll doc filters).outcome = .ok matched ∧
      (matched = true ↔ ∀ filter ∈ filters, filter.MatchesOn doc) := by
  obtain ⟨paths, matched, read, evaluated, all⟩ := exists_readQueries doc wellFormed
  refine ⟨matched, ?_, all⟩
  rw [outcome_matchesAll, read]
  exact evaluated

/-- **A list fails with the first malformed query**, and in no other way. -/
theorem matchesAll_eq_error_iff {error : MatchError} :
    (matchesAll doc filters).outcome = .error error ↔
      ∃ before filter after malformed, filters = before ++ filter :: after ∧
        (∀ earlier ∈ before, earlier.WellFormed) ∧
          Query.parse filter.query = .error malformed ∧ error = .query malformed := by
  constructor
  · intro failed
    rcases wellFormed_or_first_malformed filters with
      all | ⟨before, filter, after, malformed, rfl, earlier, parsed⟩
    · obtain ⟨matched, verdict, -⟩ := exists_matchesAll doc all
      rw [failed] at verdict
      cases verdict
    · refine ⟨before, filter, after, malformed, rfl, earlier, parsed, ?_⟩
      rw [outcome_matchesAll, readQueries_append_error earlier parsed] at failed
      cases failed
      rfl
  · rintro ⟨before, filter, after, malformed, rfl, earlier, parsed, rfl⟩
    rw [outcome_matchesAll, readQueries_append_error earlier parsed]
    rfl

/-- A list fails exactly if one of its queries is malformed. -/
theorem matchesAll_fails_iff :
    (∃ error, (matchesAll doc filters).outcome = .error error) ↔
      ∃ filter ∈ filters, ¬filter.WellFormed := by
  constructor
  · rintro ⟨error, failed⟩
    obtain ⟨before, filter, after, malformed, rfl, -, parsed, -⟩ :=
      (matchesAll_eq_error_iff doc).1 failed
    refine ⟨filter, List.mem_append_right before (List.mem_cons_self ..), ?_⟩
    rintro ⟨path, read⟩
    rw [parsed] at read
    cases read
  · rintro ⟨filter, mem, malformed⟩
    rcases wellFormed_or_first_malformed filters with
      all | ⟨before, filter, after, error, split, earlier, parsed⟩
    · exact absurd (all filter mem) malformed
    · exact ⟨_, (matchesAll_eq_error_iff doc).2
        ⟨before, filter, after, error, split, earlier, parsed, rfl⟩⟩

/-- **The order of a list does not matter** to its verdict, nor to whether it has one. -/
theorem toOption_matchesAll_perm (perm : filters.Perm others) :
    (matchesAll doc filters).outcome.toOption = (matchesAll doc others).outcome.toOption := by
  by_cases malformed : ∃ filter ∈ filters, ¬filter.WellFormed
  · obtain ⟨filter, mem, unread⟩ := malformed
    obtain ⟨error, failed⟩ := (matchesAll_fails_iff doc).2 ⟨filter, mem, unread⟩
    obtain ⟨error', failed'⟩ := (matchesAll_fails_iff doc).2 ⟨filter, perm.mem_iff.1 mem, unread⟩
    rw [failed, failed']
    rfl
  · have all : ∀ filter ∈ filters, filter.WellFormed := fun filter mem =>
      Classical.byContradiction fun unread => malformed ⟨filter, mem, unread⟩
    have all_others : ∀ filter ∈ others, filter.WellFormed := fun filter mem =>
      all filter (perm.mem_iff.2 mem)
    obtain ⟨matched, verdict, holds⟩ := exists_matchesAll doc all
    obtain ⟨matched', verdict', holds'⟩ := exists_matchesAll doc all_others
    have same : matched = matched' := by
      rw [Bool.eq_iff_iff, holds, holds']
      exact forall_congr' fun filter => by rw [perm.mem_iff]
    rw [verdict, verdict', same]

/-- **A list of two parts is the conjunction of the parts.** -/
theorem matchesAll_append (wellFormed : ∀ filter ∈ filters ++ others, filter.WellFormed) :
    ∃ first second, (matchesAll doc filters).outcome = .ok first ∧
      (matchesAll doc others).outcome = .ok second ∧
        (matchesAll doc (filters ++ others)).outcome = .ok (first && second) := by
  obtain ⟨wellFormed_first, wellFormed_second⟩ := List.forall_mem_append.1 wellFormed
  obtain ⟨first, verdict_first, holds_first⟩ := exists_matchesAll doc wellFormed_first
  obtain ⟨second, verdict_second, holds_second⟩ := exists_matchesAll doc wellFormed_second
  obtain ⟨matched, verdict, holds⟩ := exists_matchesAll doc wellFormed
  have both : matched = (first && second) := by
    rw [Bool.eq_iff_iff, Bool.and_eq_true, holds, holds_first, holds_second,
      List.forall_mem_append]
  exact ⟨first, second, verdict_first, verdict_second, both ▸ verdict⟩

end Lists

/-- **Matching a list of filters agrees with explaining each of them.** It fails exactly if
a query is malformed, with the first such query, whatever the filters before it find; else
its verdict is true exactly if explaining finds a match for every filter. So the order of
the list matters neither to the verdict nor to whether there is one, and a list of two
parts whose queries can be read is the conjunction of the parts. -/
theorem matchesAll_iff_explain (doc : Document) (filters : List Filter) :
    ((∃ error, (matchesAll doc filters).outcome = .error error) ↔
      ∃ filter ∈ filters, ¬filter.WellFormed) ∧
    (∀ error, (matchesAll doc filters).outcome = .error error ↔
      ∃ before filter after malformed, filters = before ++ filter :: after ∧
        (∀ earlier ∈ before, earlier.WellFormed) ∧
          Query.parse filter.query = .error malformed ∧ error = .query malformed) ∧
    ((∀ filter ∈ filters, filter.WellFormed) →
      ∃ matched, (matchesAll doc filters).outcome = .ok matched ∧
        (matched = true ↔ ∀ filter ∈ filters, filter.MatchesOn doc)) ∧
    (∀ others, filters.Perm others →
      (matchesAll doc filters).outcome.toOption = (matchesAll doc others).outcome.toOption) ∧
    ∀ others, (∀ filter ∈ filters ++ others, filter.WellFormed) →
      ∃ first second, (matchesAll doc filters).outcome = .ok first ∧
        (matchesAll doc others).outcome = .ok second ∧
          (matchesAll doc (filters ++ others)).outcome = .ok (first && second) :=
  ⟨matchesAll_fails_iff doc, fun _ => matchesAll_eq_error_iff doc, exists_matchesAll doc,
    fun _ => toOption_matchesAll_perm doc, fun _ => matchesAll_append doc⟩

/-- Two filters on one field, in one order and the other, and as two lists. -/
theorem matchesAll_field :
    let doc : Document := .object [("a", .number (.int 1))]
    let equal : Filter := ⟨"\"a\"", .equal, ["1"], by decide⟩
    let greater : Filter := ⟨"\"a\"", .greater, ["0"], by decide⟩
    (∀ filter ∈ [equal] ++ [greater], filter.WellFormed) ∧
      [equal, greater].Perm [greater, equal] ∧
      (∃ matched, (matchesAll doc [equal, greater]).outcome = .ok matched ∧
        (matched = true ↔ ∀ filter ∈ [equal, greater], filter.MatchesOn doc)) ∧
      (matchesAll doc [equal, greater]).outcome.toOption =
        (matchesAll doc [greater, equal]).outcome.toOption ∧
      ∃ first second, (matchesAll doc [equal]).outcome = .ok first ∧
        (matchesAll doc [greater]).outcome = .ok second ∧
          (matchesAll doc ([equal] ++ [greater])).outcome = .ok (first && second) := by
  intro doc equal greater
  have read : Query.parse "\"a\"" = .ok ⟨"\"a\"", [.key "a"]⟩ :=
    Query.parse_eq_ok_iff.2 ⟨⟨⟨[.plain 'a' (by decide)], by decide⟩, []⟩, rfl, by decide, rfl⟩
  have wellFormed : ∀ filter ∈ [equal] ++ [greater], filter.WellFormed := by
    intro filter mem
    simp only [List.cons_append, List.nil_append, List.mem_cons, List.not_mem_nil, or_false] at mem
    rcases mem with rfl | rfl
    · exact ⟨_, read⟩
    · exact ⟨_, read⟩
  have perm : [equal, greater].Perm [greater, equal] := .swap greater equal []
  exact ⟨wellFormed, perm, (matchesAll_iff_explain doc [equal, greater]).2.2.1 wellFormed,
    (matchesAll_iff_explain doc [equal, greater]).2.2.2.1 _ perm,
    (matchesAll_iff_explain doc [equal]).2.2.2.2 [greater] wellFormed⟩

end DocumentFilter
