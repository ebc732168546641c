import DocumentFilter.Proofs.Filter.Conjunction
import DocumentFilter.Proofs.Query.Locations

/-!
# Matching always returns

`DocumentFilter.evaluate` has no place for three things that could go wrong in it: that there is
no comparison for an operation, that a comparison is not defined and nobody notices, and that a
query runs into something that is no step. Here evaluation is written once more in a form that
has them. Comparisons **raise** what they cannot do, they are looked up in a table from which
`!=` is missing, and only one thing that is raised is caught again. Everything else would end
the evaluation as a `DocumentFilter.Mishap`.

The form that raises is the same function as the other one, error by error
(`DocumentFilter.Raising.judgeItems_eq`): the table is never asked for `!=`, and a comparison
that is not defined is caught in the loop that makes it. What is left to go wrong is a collection
where a scalar is needed, and that is excluded by `DocumentFilter.evaluate_eq`, since what has no
scalar is unfolded or refused before it is compared.

* `DocumentFilter.Mishap`, `DocumentFilter.Raising.evaluate`: the form that raises;
* `DocumentFilter.Raising.evaluate_eq_ok`: it returns the verdict;
* `DocumentFilter.matching_returns`: **matching and explaining return**.
-/

namespace DocumentFilter

/-! ### Evaluation that raises -/

/-- What could end an evaluation. -/
inductive Mishap
  /-- A scalar is asked of an object or of an array. -/
  | collection (kind : Kind)
  /-- The operation is not in the table. -/
  | unlisted (operation : Operation)
  /-- A comparison is not defined. -/
  | unsupported (u : Unsupported)

namespace Raising

/-- One comparison, which raises if it is not defined. -/
def compare (operation : Operation) (value : Document) (target : String) : Except Mishap Bool :=
  match DocumentFilter.compare operation value target with
  | .ok (some holds) => .ok holds
  | .ok none => .error (.unsupported ⟨operation, value, [target]⟩)
  | .error kind => .error (.collection kind)

/-- **The table of comparisons.** There is none for `!=`, which compares a value with all targets
at once. -/
def table (operation : Operation) : Except Mishap (Document → String → Except Mishap Bool) :=
  if operation = .notEqual then .error (.unlisted operation) else .ok (compare operation)

/-- A value and the targets in order. That a comparison is not defined is noted, and what else it
raises goes on. -/
def judgeTargets (operation : Operation) (compare : Document → String → Except Mishap Bool)
    (value : Document) : List String → Except Mishap Verdict
  | [] => .ok .none
  | target :: rest =>
    match compare value target with
    | .ok true => .ok ⟨true, [.matched value target operation]⟩
    | .ok false => judgeTargets operation compare value rest
    | .error (.unsupported u) => do
      let verdict ← judgeTargets operation compare value rest
      return ⟨verdict.matched, .unsupported u :: verdict.notes⟩
    | .error mishap => .error mishap

/-- A value that is looked at as it is. -/
def judgeLeaf (operation : Operation) (value : Document) (targets : List String) :
    Except Mishap Verdict := do
  if operation = .notEqual then
    return ⟨← (differs value targets).mapError .collection, []⟩
  else
    let compare ← table operation
    judgeTargets operation compare value targets

mutual

/-- One value. -/
def judge (operation : Operation) (targets : List String) : Document → Except Mishap Verdict
  | .array items =>
    if operation = .contains then judgeLeaf operation (.array items) targets
    else judgeItems operation targets items
  | .object fields =>
    if operation = .contains then judgeLeaf operation (.object fields) targets
    else .ok (.refused ⟨operation, .object fields, targets⟩)
  | value => judgeLeaf operation value targets

/-- Several values in order, up to the first match. -/
def judgeItems (operation : Operation) (targets : List String) :
    List Document → Except Mishap Verdict
  | [] => .ok .none
  | item :: rest => do
    let first ← judge operation targets item
    if first.matched then return first
    else
      let next ← judgeItems operation targets rest
      return ⟨next.matched, first.notes ++ next.notes⟩

end

/-- **Evaluation with everything that could go wrong.** -/
def evaluate (values : List Document) (operation : Operation) (targets : List String) :
    Except Mishap Verdict :=
  judgeItems operation targets values

/-! ### It is the same function -/

/-- A comparison that is not defined is noted where it is made. -/
theorem judgeTargets_eq (operation : Operation) (value : Document) (targets : List String) :
    judgeTargets operation (compare operation) value targets =
      (DocumentFilter.judgeTargets operation value targets).mapError .collection := by
  induction targets with
  | nil => rfl
  | cons target rest ih =>
    rw [judgeTargets, DocumentFilter.judgeTargets, ih, compare]
    rcases DocumentFilter.compare operation value target with kind | _ | _ | _
    · rfl
    · -- the loop goes on behind what it caught
      cases DocumentFilter.judgeTargets operation value rest <;> rfl
    · rfl
    · rfl

/-- The table is asked for what is in it. -/
theorem judgeLeaf_eq (operation : Operation) (value : Document) (targets : List String) :
    judgeLeaf operation value targets =
      (DocumentFilter.judgeLeaf operation value targets).mapError .collection := by
  by_cases not_equal : operation = .notEqual
  · subst not_equal
    rw [judgeLeaf, if_pos rfl, DocumentFilter.judgeLeaf]
    cases differs value targets <;> rfl
  · have listed : table operation = .ok (compare operation) := if_neg not_equal
    have leaf : DocumentFilter.judgeLeaf operation value targets =
        DocumentFilter.judgeTargets operation value targets := by
      cases operation with
      | notEqual => exact absurd rfl not_equal
      | _ => rfl
    rw [judgeLeaf, if_neg not_equal, listed, leaf]
    exact judgeTargets_eq operation value targets

mutual

theorem judge_eq (operation : Operation) (targets : List String) (doc : Document) :
    judge operation targets doc =
      (DocumentFilter.judge operation targets doc).mapError .collection := by
  cases doc with
  | array items =>
    rw [judge, DocumentFilter.judge, judgeLeaf_eq, judgeItems_eq operation targets items]
    split <;> rfl
  | object fields =>
    rw [judge, DocumentFilter.judge, judgeLeaf_eq]
    split <;> rfl
  | _ => simp only [judge, DocumentFilter.judge, judgeLeaf_eq]

/-- **Raising makes no difference**: nothing that is raised is left over but what the other form
has as an error as well. -/
theorem judgeItems_eq (operation : Operation) (targets : List String) (docs : List Document) :
    judgeItems operation targets docs =
      (DocumentFilter.judgeItems operation targets docs).mapError .collection := by
  cases docs with
  | nil => rfl
  | cons doc rest =>
    rw [judgeItems, DocumentFilter.judgeItems, judge_eq operation targets doc,
      judgeItems_eq operation targets rest, Verdict.orElse]
    cases DocumentFilter.judge operation targets doc with
    | error kind => rfl
    | ok first =>
      obtain ⟨matched, notes⟩ := first
      cases matched with
      | true => rfl
      | false => cases DocumentFilter.judgeItems operation targets rest <;> rfl

end

/-- **The form that raises returns the verdict.** -/
theorem evaluate_eq_ok (values : List Document) (operation : Operation) (targets : List String) :
    evaluate values operation targets = .ok (operation.verdict values targets) := by
  have guarded : DocumentFilter.judgeItems operation targets values =
      .ok (operation.verdict values targets) := evaluate_eq values operation targets
  rw [evaluate, judgeItems_eq, guarded]
  rfl

end Raising

/-! ### Matching and explaining -/

/-- The steps of a query are steps, so that nothing else is reached. -/
theorem Query.follow_resolve (query : Query) (doc : Document) :
    follow (query.steps.map .step) [doc] = .ok (query.resolve doc) :=
  follow_steps query.steps doc

/-- **Matching and explaining return.** For filters whose queries can be read, whatever the
document: the list has a verdict; each filter is explained, by the values that its query leads to
and the verdict on them, and neither following the steps nor evaluating with everything that
could go wrong ends otherwise; and so it is with any values, any operation and any targets. -/
theorem matching_returns (doc : Document) {filters : List Filter}
    (wellFormed : ∀ filter ∈ filters, filter.WellFormed) :
    (∃ matched, (matchesAll doc filters).outcome = .ok matched) ∧
    (∀ filter ∈ filters, ∃ query found, Query.parse filter.query = .ok query ∧
      (explain doc filter).outcome = .ok found ∧
      Query.follow (query.steps.map .step) [doc] = .ok found.values ∧
      Raising.evaluate found.values filter.operation filter.values = .ok found.verdict) ∧
    ∀ values operation targets, ∃ verdict,
      Raising.evaluate values operation targets = .ok verdict ∧
      (matchesValues false values operation targets).outcome = .ok verdict.matched := by
  refine ⟨?_, ?_, ?_⟩
  · obtain ⟨matched, verdict, -⟩ := exists_matchesAll doc wellFormed
    exact ⟨matched, verdict⟩
  · intro filter mem
    obtain ⟨query, read⟩ := wellFormed filter mem
    exact ⟨query, _, read, outcome_explain read doc, query.follow_resolve doc,
      Raising.evaluate_eq_ok ..⟩
  · intro values operation targets
    refine ⟨_, Raising.evaluate_eq_ok values operation targets, ?_⟩
    simp only [matchesValues, evaluateNoting, evaluate_eq, Traced.outcome_bind]
    rfl

/-- An object in an array in an array, which has no order and equals no text. -/
theorem matching_returns_nested :
    let doc : Document := .object [("a", .array [.array [.object [("b", .null)]], .bool true])]
    let greater : Filter := ⟨"\"a\"", .greater, ["1"], by decide⟩
    let differs : Filter := ⟨"\"a\"", .notEqual, ["true"], by decide⟩
    (∀ filter ∈ [greater, differs], filter.WellFormed) ∧
      (∃ matched, (matchesAll doc [greater, differs]).outcome = .ok matched) ∧
      (∃ found, (explain doc greater).outcome = .ok found ∧
        Raising.evaluate found.values .greater ["1"] = .ok found.verdict) ∧
      ∃ verdict, Raising.evaluate [doc] .contains ["a"] = .ok verdict ∧
        (matchesValues false [doc] .contains ["a"]).outcome = .ok verdict.matched := by
  intro doc greater differs
  have read : Query.parse "\"a\"" = .ok ⟨"\"a\"", [.key "a"]⟩ :=
    Query.parse_eq_ok_iff.2 ⟨⟨⟨[.plain 'a' (by decide)], by decide⟩, []⟩, rfl, by decide, rfl⟩
  have wellFormed : ∀ filter ∈ [greater, differs], filter.WellFormed :=
    List.forall_mem_cons.2 ⟨⟨_, read⟩, List.forall_mem_singleton.2 ⟨_, read⟩⟩
  obtain ⟨matched, explained, evaluated⟩ := matching_returns doc wellFormed
  obtain ⟨-, found, -, outcome, -, verdict⟩ := explained greater (List.mem_cons_self ..)
  exact ⟨wellFormed, matched, ⟨found, outcome, verdict⟩, evaluated [doc] .contains ["a"]⟩

end DocumentFilter
