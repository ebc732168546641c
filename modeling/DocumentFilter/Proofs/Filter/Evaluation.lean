import DocumentFilter.Filter.Evaluation
import DocumentFilter.Query.Resolve

/-!
# Evaluation as a run over single comparisons

`DocumentFilter.judge` descends into arrays and stops at the first match, and it could in
principle meet an object or an array where it needs a scalar. Here both are taken apart.
What an operation looks at are its **subjects** – the leaves of a value, or the value
itself for `~` – and each subject makes a list of **attempts**, verdicts of their own. The
whole evaluation is a run over the attempts of all subjects, in order, up to the first
match: nothing is left of the nesting, and nothing of the errors.

The induction is on the document, together with the lists of its items. What carries it is
that a run over attempts in a row is the run over the first ones, and over the others only
if there was no match (`DocumentFilter.Verdict.upTo_append`).

* `DocumentFilter.Verdict.upTo`: a run up to the first match;
* `DocumentFilter.Operation.subjects`, `DocumentFilter.attempts`: what it runs over;
* `DocumentFilter.Operation.verdict`: the verdict of that run;
* `DocumentFilter.evaluate_eq`: evaluation ends with it, and has no errors.
-/

namespace DocumentFilter

/-! ### Runs up to the first match -/

namespace Verdict

/-- **A run up to the first match**: its match, and what was noted on the way. -/
def upTo : List Verdict → Verdict
  | [] => .none
  | first :: rest =>
    if first.matched then first else ⟨(upTo rest).matched, first.notes ++ (upTo rest).notes⟩

theorem orElse_ok (first next : Verdict) :
    orElse (.ok first) (.ok next) =
      .ok (if first.matched then first else ⟨next.matched, first.notes ++ next.notes⟩) := by
  obtain ⟨matched, notes⟩ := first
  cases matched <;> rfl

theorem upTo_singleton (verdict : Verdict) : upTo [verdict] = verdict := by
  obtain ⟨matched, notes⟩ := verdict
  cases matched <;> simp [upTo, none]

/-- There is a match if one of the verdicts is one. -/
theorem matched_upTo (verdicts : List Verdict) :
    (upTo verdicts).matched = verdicts.any Verdict.matched := by
  induction verdicts with
  | nil => rfl
  | cons first rest ih =>
    by_cases h : first.matched
    · simp [upTo, h]
    · simp [upTo, h, ih]

/-- **A run over verdicts in a row** goes on after the first ones unless they match. -/
theorem upTo_append (first next : List Verdict) :
    orElse (.ok (upTo first)) (.ok (upTo next)) = .ok (upTo (first ++ next)) := by
  rw [orElse_ok]
  induction first with
  | nil => simp [upTo, none]
  | cons verdict rest ih =>
    simp only [Except.ok.injEq] at ih
    by_cases h : verdict.matched
    · simp [upTo, h]
    · rw [List.cons_append, upTo, if_neg h, upTo, if_neg h, ← ih]
      by_cases hrest : (upTo rest).matched
      · simp [hrest]
      · simp [hrest]

end Verdict

/-! ### Leaves and scalars -/

namespace Document

theorem leavesOfItems_eq (items : List Document) : leavesOfItems items = items.flatMap leaves := by
  induction items with
  | nil => rfl
  | cons item rest ih => rw [leavesOfItems, ih, List.flatMap_cons]

theorem leaves_array (items : List Document) : leaves (.array items) = items.flatMap leaves := by
  rw [leaves, leavesOfItems_eq]

theorem leaves_object (fields : List (String × Document)) :
    leaves (.object fields) = [.object fields] := by
  simp only [leaves]

theorem leaves_scalar {doc : Document} (h : doc.isCollection = false) : leaves doc = [doc] := by
  cases doc with
  | array items => cases h
  | _ => simp only [leaves]

/-- A scalar is no object. -/
theorem isObject_of_scalar {doc : Document} (h : doc.isCollection = false) :
    doc.isObject = false := by
  cases doc with
  | object fields => cases h
  | _ => rfl

end Document

/-- A document that is neither an object nor an array has a scalar. -/
theorem Scalar.exists_ofDocument {doc : Document} (h : doc.isCollection = false) :
    ∃ a, Scalar.ofDocument doc = .ok a := by
  cases doc with
  | null => exact ⟨_, rfl⟩
  | bool b => exact ⟨_, rfl⟩
  | number n => exact ⟨_, rfl⟩
  | string s => exact ⟨_, rfl⟩
  | array items => cases h
  | object fields => cases h

/-- A document that has a scalar is neither an object nor an array. -/
theorem Scalar.isCollection_of_ofDocument {doc : Document} {a : Scalar}
    (scalar : Scalar.ofDocument doc = .ok a) : doc.isCollection = false := by
  cases doc with
  | array items => cases scalar
  | object fields => cases scalar
  | _ => rfl

/-- A document whose scalar equals that of a text. Objects and arrays have no scalar, and
equal no text. -/
def Document.equals (doc : Document) (target : String) : Bool :=
  match Scalar.ofDocument doc with
  | .ok a => a.same (.ofText target)
  | .error _ => false

theorem equalTo_eq {doc : Document} (h : doc.isCollection = false) (target : String) :
    equalTo target doc = .ok (doc.equals target) := by
  obtain ⟨a, scalar⟩ := Scalar.exists_ofDocument h
  simp only [equalTo, Document.equals, scalar]
  rfl

theorem anyEqualTo_eq (target : String) (items : List Document) :
    anyEqualTo target items =
      .ok (items.any fun item => !item.isCollection && item.equals target) := by
  induction items with
  | nil => rfl
  | cons item rest ih =>
    by_cases h : item.isCollection
    · simp [anyEqualTo, h, ih]
    · rw [Bool.not_eq_true] at h
      simp only [anyEqualTo, h, equalTo_eq h, ih, List.any_cons]
      cases item.equals target <;> rfl

theorem differs_eq {value : Document} (h : value.isCollection = false) (targets : List String) :
    differs value targets = .ok (targets.all fun target => !value.equals target) := by
  induction targets with
  | nil => rfl
  | cons target rest ih =>
    simp only [differs, equalTo_eq h, ih, List.all_cons]
    cases value.equals target <;> rfl

/-! ### Single comparisons -/

/-- What an operation looks at as it is: any value for `~`, and else what has a scalar. -/
def Operation.Takes (operation : Operation) (value : Document) : Prop :=
  operation = .contains ∨ value.isCollection = false

theorem compare_equal {value : Document} (h : value.isCollection = false) (target : String) :
    compare .equal value target = .ok (some (value.equals target)) := by
  rw [compare, equalTo_eq h]
  rfl

theorem compare_notEqual {value : Document} (h : value.isCollection = false) (target : String) :
    compare .notEqual value target = .ok (some !value.equals target) := by
  rw [compare, equalTo_eq h]
  rfl

theorem compare_greater {value : Document} {a : Scalar} (scalar : Scalar.ofDocument value = .ok a)
    (target : String) : compare .greater value target = .ok ((Scalar.ofText target).below? a) := by
  simp only [compare, scalar]
  rfl

theorem compare_lower {value : Document} {a : Scalar} (scalar : Scalar.ofDocument value = .ok a)
    (target : String) : compare .lower value target = .ok (a.below? (.ofText target)) := by
  simp only [compare, scalar]
  rfl

/-- Whether a document has a text, as `~` asks; none where it cannot be asked. -/
def Document.contains? (target : String) : Document → Option Bool
  | .string s => some (isInfix target.toList s.toList)
  | .array items => some (items.any fun item => !item.isCollection && item.equals target)
  | .object fields => some (lookup target fields).isSome
  | _ => none

theorem compare_contains (value : Document) (target : String) :
    compare .contains value target = .ok (value.contains? target) := by
  cases value with
  | array items =>
    rw [compare, containsText, anyEqualTo_eq]
    rfl
  | _ => rfl

/-- The comparison of a value that the operation takes has no error. -/
theorem exists_compare {operation : Operation} {value : Document} (h : operation.Takes value)
    (target : String) : ∃ found, compare operation value target = .ok found := by
  rcases h with rfl | h
  · exact ⟨_, compare_contains value target⟩
  · obtain ⟨a, scalar⟩ := Scalar.exists_ofDocument h
    cases operation with
    | equal => exact ⟨_, compare_equal h target⟩
    | notEqual => exact ⟨_, compare_notEqual h target⟩
    | contains => exact ⟨_, compare_contains value target⟩
    | greater => exact ⟨_, compare_greater scalar target⟩
    | lower => exact ⟨_, compare_lower scalar target⟩

/-- The verdict on one value and one target, by what their comparison finds. -/
def Verdict.ofFound (operation : Operation) (value : Document) (target : String) :
    Option Bool → Verdict
  | some true => ⟨true, [.matched value target operation]⟩
  | some false => .none
  | Option.none => .refused ⟨operation, value, [target]⟩

/-- The verdict on one value and one target. -/
def attempt (operation : Operation) (value : Document) (target : String) : Verdict :=
  match compare operation value target with
  | .ok found => .ofFound operation value target found
  | .error _ => .none

theorem attempt_eq {operation : Operation} {value : Document} {target : String}
    {found : Option Bool} (compared : compare operation value target = .ok found) :
    attempt operation value target = .ofFound operation value target found := by
  rw [attempt, compared]

theorem matched_attempt_iff {operation : Operation} {value : Document} {target : String} :
    (attempt operation value target).matched = true ↔
      compare operation value target = .ok (some true) := by
  unfold attempt
  split
  · rename_i found compared
    rw [compared]
    rcases found with _ | _ | _ <;> simp [Verdict.ofFound, Verdict.refused, Verdict.none]
  · rename_i kind compared
    rw [compared]
    simp [Verdict.none]

/-- The targets are tried in order. -/
theorem judgeTargets_eq {operation : Operation} {value : Document} (h : operation.Takes value)
    (targets : List String) :
    judgeTargets operation value targets =
      .ok (.upTo (targets.map (attempt operation value))) := by
  induction targets with
  | nil => rfl
  | cons target rest ih =>
    obtain ⟨found, compared⟩ := exists_compare h target
    rw [List.map_cons, attempt_eq compared, judgeTargets, compared, ih]
    rcases found with _ | _ | _ <;> rfl

/-! ### Subjects and their attempts -/

/-- **What an operation looks at** in a value, in order: its leaves, but for `~` the value
itself. -/
def Operation.subjects (operation : Operation) (value : Document) : List Document :=
  if operation = .contains then [value] else value.leaves

/-- **The attempts of a subject**, in order. An object is refused at once with all targets,
except by `~`; `!=` has one attempt on all targets; else there is one for each target. -/
def attempts (operation : Operation) (targets : List String) (subject : Document) :
    List Verdict :=
  if operation ≠ .contains ∧ subject.isObject then [.refused ⟨operation, subject, targets⟩]
  else if operation = .notEqual then [⟨targets.all fun target => !subject.equals target, []⟩]
  else targets.map (attempt operation subject)

/-- An object is refused by every operation but `~`. -/
theorem attempts_object {operation : Operation} (h : operation ≠ .contains)
    (targets : List String) (fields : List (String × Document)) :
    attempts operation targets (.object fields) =
      [.refused ⟨operation, .object fields, targets⟩] :=
  if_pos ⟨h, rfl⟩

/-- What an operation takes is judged by its attempts. -/
theorem judgeLeaf_eq {operation : Operation} {value : Document} (h : operation.Takes value)
    (targets : List String) :
    judgeLeaf operation value targets = .ok (.upTo (attempts operation targets value)) := by
  -- What has a scalar is no object, so the attempts are not the refusal of one.
  have accepted : ¬(operation ≠ .contains ∧ value.isObject) := by
    rintro ⟨not_contains, object⟩
    have scalar := h.resolve_left not_contains
    cases value with
    | object fields => cases scalar
    | _ => cases object
  rw [attempts, if_neg accepted]
  by_cases not_equal : operation = .notEqual
  · subst not_equal
    have scalar := h.resolve_left Operation.noConfusion
    rw [if_pos rfl, Verdict.upTo_singleton, judgeLeaf, differs_eq scalar]
    rfl
  · rw [if_neg not_equal, ← judgeTargets_eq h]
    cases operation with
    | notEqual => exact absurd rfl not_equal
    | _ => rfl

theorem judge_scalar {doc : Document} (h : doc.isCollection = false) (operation : Operation)
    (targets : List String) : judge operation targets doc = judgeLeaf operation doc targets := by
  cases doc with
  | array items => cases h
  | object fields => cases h
  | _ => simp only [judge]

mutual

/-- A value is judged by the attempts of its subjects. -/
theorem judge_eq (operation : Operation) (targets : List String) (doc : Document) :
    judge operation targets doc =
      .ok (.upTo ((operation.subjects doc).flatMap (attempts operation targets))) := by
  by_cases contains : operation = .contains
  · rw [Operation.subjects, if_pos contains, List.flatMap_singleton,
      ← judgeLeaf_eq (.inl contains)]
    cases doc <;> simp only [judge, contains, if_true]
  · rw [Operation.subjects, if_neg contains]
    cases doc with
    | array items =>
      -- The leaves of an array are those of its items, which are judged in order.
      have subjects : operation.subjects = Document.leaves := funext fun _ => if_neg contains
      rw [judge, if_neg contains, judgeItems_eq operation targets items, subjects,
        Document.leaves_array]
    | object fields =>
      rw [Document.leaves_object, List.flatMap_singleton, attempts_object contains,
        Verdict.upTo_singleton]
      simp only [judge, if_neg contains]
    | _ =>
      rw [judge_scalar rfl, Document.leaves_scalar rfl, List.flatMap_singleton]
      exact judgeLeaf_eq (.inr rfl) targets

/-- Values in order are judged by the attempts of their subjects. -/
theorem judgeItems_eq (operation : Operation) (targets : List String)
    (docs : List Document) :
    judgeItems operation targets docs =
      .ok (.upTo ((docs.flatMap operation.subjects).flatMap (attempts operation targets))) := by
  cases docs with
  | nil => rfl
  | cons doc rest =>
    rw [judgeItems, judge_eq operation targets doc, judgeItems_eq operation targets rest,
      Verdict.upTo_append, List.flatMap_cons, List.flatMap_append]

end

/-- The verdict of several values and several targets: a run over the attempts of all
subjects. -/
def Operation.verdict (operation : Operation) (values : List Document) (targets : List String) :
    Verdict :=
  .upTo ((values.flatMap operation.subjects).flatMap (attempts operation targets))

/-- **Evaluation is a run** over the attempts of all subjects, up to the first match. In
particular no comparison meets an object or an array where it needs a scalar. -/
theorem evaluate_eq (values : List Document) (operation : Operation) (targets : List String) :
    evaluate values operation targets = .ok (operation.verdict values targets) :=
  judgeItems_eq operation targets values

end DocumentFilter
