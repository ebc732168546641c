import DocumentFilter.Proofs.Filter.Conjunction
import DocumentFilter.Proofs.Filter.Order
import Mathlib.Data.List.Forall2

/-!
# Comparisons that are not defined

Evaluation notes which comparisons it could not make, on its way to the first match. What it notes
is described here by the comparisons that there are, whether they are made or not: a **trial** is a
subject with the targets that it is compared with at once, and the trials of an evaluation stand in
a row, in the order of the values, of their leaves and of the targets
(`DocumentFilter.Operation.trials`). Each trial is for itself a match or not, and has a comparison
that is defined or not (`DocumentFilter.Operation.Undefined`). The list of what is noted is then the
list of all trials, cut at the first match and without those that are defined.

A trial is an evaluation of its own, of one value and the targets of the trial, which makes a single
attempt. So what is known of evaluations says of each trial whether it is a match, and the rest is
the induction that goes along a row of trials and the row of their attempts
(`DocumentFilter.exists_beforeFirst`).

* `DocumentFilter.Operation.trials`, `DocumentFilter.BeforeFirst`: the comparisons in a row, and
  those before the first match;
* `DocumentFilter.Operation.Undefined`: what is not defined;
* `DocumentFilter.exists_beforeFirst_verdict`: **what evaluation notes**;
* `DocumentFilter.unsupported_comparisons`: the same for strict matching and for explaining.
-/

namespace DocumentFilter

/-! ### Trials -/

/-- **A trial**: a subject and the targets that it is compared with at once. -/
structure Trial where
  subject : Document
  targets : List String

/-- **A document apart from a text**: its scalar is not of one ordered kind with that of the
text. -/
def Document.Apart (doc : Document) (target : String) : Prop :=
  ∃ a, Scalar.ofDocument doc = .ok a ∧ ¬a.OneKind (.ofText target)

theorem compare_greater_eq_none_iff {doc : Document} {target : String} :
    compare .greater doc target = .ok none ↔ doc.Apart target := by
  have symm : ∀ a b : Scalar, a.OneKind b ↔ b.OneKind a := fun _ _ =>
    ⟨Scalar.OneKind.symm, Scalar.OneKind.symm⟩
  cases scalar : Scalar.ofDocument doc with
  | ok a =>
    simp [compare_greater scalar, Document.Apart, scalar, Scalar.below?_eq_none_iff, symm a]
  | error kind => simp [compare, Document.Apart, scalar, bind, Except.bind]

theorem compare_lower_eq_none_iff {doc : Document} {target : String} :
    compare .lower doc target = .ok none ↔ doc.Apart target := by
  cases scalar : Scalar.ofDocument doc with
  | ok a => simp [compare_lower scalar, Document.Apart, scalar, Scalar.below?_eq_none_iff]
  | error kind => simp [compare, Document.Apart, scalar, bind, Except.bind]

theorem compare_contains_eq_none_iff {doc : Document} {target : String} :
    compare .contains doc target = .ok none ↔ doc.kind ∈ [.null, .bool, .number] := by
  rw [compare_contains]
  cases doc <;> simp [Document.contains?, Document.kind]

instance (doc : Document) (target : String) : Decidable (doc.Apart target) :=
  match scalar : Scalar.ofDocument doc with
  | .ok a => decidable_of_iff (a.below? (.ofText target) = none)
    (by simp [Document.Apart, scalar, Scalar.below?_eq_none_iff])
  | .error _ => isFalse (by simp [Document.Apart, scalar])

namespace Operation

/-- **The trials of a subject**, in order. There is one on all targets for an object, except under
`~`, and for every subject under `!=`; else there is one for each target. -/
def trialsOf (operation : Operation) (targets : List String) (subject : Document) : List Trial :=
  if operation ≠ .contains ∧ subject.isObject ∨ operation = .notEqual then [⟨subject, targets⟩]
  else targets.map fun target => ⟨subject, [target]⟩

/-- **The trials of an evaluation**, in order: of the values, of the leaves of each of them and of
the targets. -/
def trials (operation : Operation) (values : List Document) (targets : List String) : List Trial :=
  (values.flatMap operation.subjects).flatMap (operation.trialsOf targets)

/-- A trial that is a match: the condition of the operation, for this subject and these targets. -/
def MatchesAt (operation : Operation) (trial : Trial) : Prop :=
  operation.Holds [trial.subject] trial.targets

/-- **A trial whose comparison is not defined.** `~` is not defined for numbers, booleans and null.
The others are not defined for objects, and `>` and `<` neither for what is not of one ordered kind
with the target. -/
def Undefined (operation : Operation) (trial : Trial) : Prop :=
  match operation with
  | .contains => trial.subject.kind ∈ [.null, .bool, .number]
  | .equal => trial.subject.isObject = true
  | .notEqual => trial.subject.isObject = true
  | .greater => trial.subject.isObject = true ∨ ∀ target ∈ trial.targets, trial.subject.Apart target
  | .lower => trial.subject.isObject = true ∨ ∀ target ∈ trial.targets, trial.subject.Apart target

instance (operation : Operation) (trial : Trial) : Decidable (operation.Undefined trial) :=
  match operation with
  | .contains => inferInstanceAs (Decidable (_ ∈ _))
  | .equal => inferInstanceAs (Decidable (_ = _))
  | .notEqual => inferInstanceAs (Decidable (_ = _))
  | .greater => inferInstanceAs (Decidable (_ ∨ _))
  | .lower => inferInstanceAs (Decidable (_ ∨ _))

/-- What is noted of a trial whose comparison is not defined. -/
def refusal (operation : Operation) (trial : Trial) : Unsupported :=
  ⟨operation, trial.subject, trial.targets⟩

/-- What is noted of trials, those that are defined left out. -/
def refusals (operation : Operation) (trials : List Trial) : List Unsupported :=
  (trials.filter fun trial => operation.Undefined trial).map operation.refusal

theorem refusals_cons_of_undefined {operation : Operation} {trial : Trial}
    (undefined : operation.Undefined trial) (rest : List Trial) :
    operation.refusals (trial :: rest) = operation.refusal trial :: operation.refusals rest := by
  simp [refusals, undefined]

theorem refusals_cons_of_defined {operation : Operation} {trial : Trial}
    (defined : ¬operation.Undefined trial) (rest : List Trial) :
    operation.refusals (trial :: rest) = operation.refusals rest := by
  simp [refusals, defined]

end Operation

/-- **What comes before the first** element of a list with a property, and whether there is one: all
of the list, if no element has it. -/
inductive BeforeFirst {α : Type} (p : α → Prop) : List α → List α → Bool → Prop
  | never {all : List α} (never : ∀ x ∈ all, ¬p x) : BeforeFirst p all all false
  | found {before : List α} {x : α} {after : List α} (never : ∀ y ∈ before, ¬p y) (first : p x) :
      BeforeFirst p (before ++ x :: after) before true

theorem BeforeFirst.cons {α : Type} {p : α → Prop} {all before : List α} {found : Bool}
    (h : BeforeFirst p all before found) {x : α} (not : ¬p x) :
    BeforeFirst p (x :: all) (x :: before) found := by
  cases h with
  | never never => exact .never (List.forall_mem_cons.2 ⟨not, never⟩)
  | @found before y after never first =>
    have earlier : ∀ z ∈ x :: before, ¬p z := List.forall_mem_cons.2 ⟨not, never⟩
    exact .found earlier first

/-- Where there is no such element, nothing is cut off. -/
theorem BeforeFirst.eq_all {α : Type} {p : α → Prop} {all before : List α}
    (h : BeforeFirst p all before false) : before = all := by
  cases h
  rfl

/-! ### Trials and attempts -/

/-- **An attempt that answers a trial**: it is a match if the trial is one, and notes a comparison
if it is not defined. -/
structure Answers (operation : Operation) (trial : Trial) (attempt : Verdict) : Prop where
  matched : attempt.matched = true ↔ operation.MatchesAt trial
  silent : attempt.matched = true → attempt.unsupported = []
  unsupported : attempt.unsupported = operation.refusals [trial]

/-- **A run over attempts** notes what their trials before the first match have to note. The
induction is on the two rows together. -/
theorem exists_beforeFirst {operation : Operation} {trials : List Trial} {attempts : List Verdict}
    (answers : List.Forall₂ (Answers operation) trials attempts) :
    ∃ before, BeforeFirst operation.MatchesAt trials before (Verdict.upTo attempts).matched ∧
      (Verdict.upTo attempts).unsupported = operation.refusals before := by
  induction answers with
  | nil => exact ⟨[], .never (by simp), rfl⟩
  | @cons trial attempt trials attempts answer _ ih =>
    by_cases matched : attempt.matched
    · rw [Verdict.upTo, if_pos matched, matched]
      have none : ∀ earlier ∈ [], ¬operation.MatchesAt earlier := List.forall_mem_nil _
      exact ⟨[], .found none (answer.matched.1 matched), answer.silent matched⟩
    · obtain ⟨before, cut, noted⟩ := ih
      have not : ¬operation.MatchesAt trial := mt answer.matched.2 matched
      have both : (Verdict.upTo (attempt :: attempts)).unsupported =
          attempt.unsupported ++ (Verdict.upTo attempts).unsupported := by
        rw [Verdict.upTo, if_neg matched, Verdict.unsupported, List.filterMap_append]
        rfl
      refine ⟨trial :: before, ?_, ?_⟩
      · rw [Verdict.upTo, if_neg matched]
        exact cut.cons not
      · rw [both, noted, answer.unsupported]
        by_cases undefined : operation.Undefined trial
        · rw [Operation.refusals_cons_of_undefined undefined,
            Operation.refusals_cons_of_undefined undefined]
          rfl
        · rw [Operation.refusals_cons_of_defined undefined,
            Operation.refusals_cons_of_defined undefined]
          rfl

/-! ### Subjects -/

mutual

/-- Arrays are unfolded until there are none. -/
theorem Document.ne_array_of_mem_leaves (doc : Document) :
    ∀ leaf ∈ doc.leaves, ∀ items, leaf ≠ .array items := by
  cases doc with
  | array others =>
    rw [leaves]
    exact ne_array_of_mem_leavesOfItems others
  | _ => simp [leaves]

theorem Document.ne_array_of_mem_leavesOfItems (docs : List Document) :
    ∀ leaf ∈ leavesOfItems docs, ∀ items, leaf ≠ .array items := by
  cases docs with
  | nil => simp [leavesOfItems]
  | cons doc rest =>
    rw [leavesOfItems, List.forall_mem_append]
    exact ⟨ne_array_of_mem_leaves doc, ne_array_of_mem_leavesOfItems rest⟩

end

/-- **A subject**: what an operation looks at as it is, and objects, which most refuse. -/
def Operation.IsSubject (operation : Operation) (doc : Document) : Prop :=
  operation = .contains ∨ ∀ items, doc ≠ .array items

theorem Operation.isSubject_of_mem {operation : Operation} {value : Document} :
    ∀ subject ∈ operation.subjects value, operation.IsSubject subject := by
  intro subject mem
  by_cases contains : operation = .contains
  · exact .inl contains
  · rw [subjects, if_neg contains] at mem
    exact .inr (value.ne_array_of_mem_leaves subject mem)

/-- What a comparison notes. -/
theorem unsupported_attempt {operation : Operation} {subject : Document} {target : String}
    {found : Option Bool} (compared : compare operation subject target = .ok found) :
    (attempt operation subject target).unsupported =
      if found = none then [⟨operation, subject, [target]⟩] else [] := by
  rw [attempt_eq compared]
  rcases found with _ | _ | _ <;> rfl

/-- Apart from objects, a trial on one target is not defined if its comparison finds nothing. -/
theorem undefined_iff {operation : Operation} {subject : Document} (listed : operation ≠ .notEqual)
    (plain : operation ≠ .contains → subject.isCollection = false) {target : String} :
    operation.Undefined ⟨subject, [target]⟩ ↔ compare operation subject target = .ok none := by
  cases operation with
  | notEqual => exact absurd rfl listed
  | contains => exact compare_contains_eq_none_iff.symm
  | equal =>
    have scalar := plain Operation.noConfusion
    simp [Operation.Undefined, Document.isObject_of_scalar scalar, compare_equal scalar]
  | greater =>
    have object := Document.isObject_of_scalar (plain Operation.noConfusion)
    simp [Operation.Undefined, object, compare_greater_eq_none_iff]
  | lower =>
    have object := Document.isObject_of_scalar (plain Operation.noConfusion)
    simp [Operation.Undefined, object, compare_lower_eq_none_iff]

section Subjects

variable {operation : Operation} {subject : Document} (looked : operation.IsSubject subject)
include looked

/-- In a subject the operation looks at nothing else. -/
theorem Operation.subjects_subject : operation.subjects subject = [subject] := by
  rw [subjects]
  rcases looked with contains | no_array
  · rw [if_pos contains]
  · cases subject with
    | array items => exact absurd rfl (no_array items)
    | _ => simp [Document.leaves]

/-- An attempt is a match if the condition of the operation holds for what it is made on. -/
theorem matched_iff_holds {targets : List String} {attempt : Verdict}
    (single : attempts operation targets subject = [attempt]) :
    attempt.matched = true ↔ operation.Holds [subject] targets := by
  rw [← matched_verdict_iff_holds, Operation.verdict, List.flatMap_singleton,
    Operation.subjects_subject looked, List.flatMap_singleton, single, Verdict.upTo_singleton]

/-- What is refused at once is no match, and not defined. -/
theorem answers_refused (refused : operation ≠ .contains ∧ subject.isObject)
    (targets : List String) :
    Answers operation ⟨subject, targets⟩ (.refused ⟨operation, subject, targets⟩) := by
  have single : attempts operation targets subject = [.refused ⟨operation, subject, targets⟩] :=
    if_pos refused
  have undefined : operation.Undefined ⟨subject, targets⟩ := by
    obtain ⟨not_contains, object⟩ := refused
    cases operation with
    | contains => exact absurd rfl not_contains
    | equal => exact object
    | notEqual => exact object
    | greater => exact .inl object
    | lower => exact .inl object
  refine ⟨matched_iff_holds looked single, Bool.noConfusion, ?_⟩
  rw [Operation.refusals_cons_of_undefined undefined]
  rfl

/-- What is tried on one target is a match or not, or it is not defined. -/
theorem answers_attempt (accepted : ¬(operation ≠ .contains ∧ subject.isObject))
    (listed : operation ≠ .notEqual) (target : String) :
    Answers operation ⟨subject, [target]⟩ (attempt operation subject target) := by
  have plain : operation ≠ .contains → subject.isCollection = false := by
    intro not_contains
    cases subject with
    | array items => exact absurd rfl (looked.resolve_left not_contains items)
    | object fields => exact absurd ⟨not_contains, rfl⟩ accepted
    | _ => rfl
  have single : attempts operation [target] subject = [attempt operation subject target] := by
    rw [attempts, if_neg accepted, if_neg listed, List.map_singleton]
  obtain ⟨found, compared⟩ := exists_compare (or_iff_not_imp_left.2 plain) target
  have undefined : operation.Undefined ⟨subject, [target]⟩ ↔ found = none := by
    rw [undefined_iff listed plain, compared, Except.ok.injEq]
  have noted := unsupported_attempt compared
  refine ⟨matched_iff_holds looked single, ?_, ?_⟩
  · intro matched
    rw [matched_attempt_iff, compared, Except.ok.injEq] at matched
    rw [noted, if_neg (by simp [matched])]
  · rw [noted]
    by_cases none : found = none
    · rw [if_pos none, Operation.refusals_cons_of_undefined (undefined.2 none)]
      rfl
    · rw [if_neg none, Operation.refusals_cons_of_defined (mt undefined.1 none)]
      rfl

/-- **The attempts of a subject answer its trials**, one by one. -/
theorem answers_attempts (targets : List String) :
    List.Forall₂ (Answers operation) (operation.trialsOf targets subject)
      (attempts operation targets subject) := by
  by_cases refused : operation ≠ .contains ∧ subject.isObject
  · rw [Operation.trialsOf, if_pos (.inl refused), attempts, if_pos refused]
    exact .cons (answers_refused looked refused targets) .nil
  by_cases not_equal : operation = .notEqual
  · -- all targets are one attempt, and what could be refused is gone
    subst not_equal
    have single : attempts .notEqual targets subject =
        [⟨targets.all fun target => !subject.equals target, []⟩] := by
      rw [attempts, if_neg refused, if_pos rfl]
    have defined : ¬Operation.notEqual.Undefined ⟨subject, targets⟩ := fun object =>
      refused ⟨Operation.noConfusion, object⟩
    rw [Operation.trialsOf, if_pos (.inr rfl), single]
    refine .cons ⟨matched_iff_holds looked single, fun _ => rfl, ?_⟩ .nil
    rw [Operation.refusals_cons_of_defined defined]
    rfl
  · -- the two rows go along the targets
    rw [Operation.trialsOf, if_neg (not_or.2 ⟨refused, not_equal⟩), attempts, if_neg refused,
      if_neg not_equal, List.forall₂_map_left_iff, List.forall₂_map_right_iff, List.forall₂_same]
    exact fun target _ => answers_attempt looked refused not_equal target

end Subjects

/-! ### Evaluation -/

/-- The attempts of an evaluation answer its trials. The induction is on the subjects of all
values. -/
theorem answers_subjects {operation : Operation} (targets : List String) {subjects : List Document}
    (looked : ∀ subject ∈ subjects, operation.IsSubject subject) :
    List.Forall₂ (Answers operation) (subjects.flatMap (operation.trialsOf targets))
      (subjects.flatMap (attempts operation targets)) := by
  induction subjects with
  | nil => exact .nil
  | cons subject rest ih =>
    obtain ⟨first, others⟩ := List.forall_mem_cons.1 looked
    exact List.rel_append (answers_attempts first targets) (ih others)

section Verdicts

variable (values : List Document) (operation : Operation) (targets : List String)

/-- **What evaluation notes** are the comparisons before the first match that are not defined. -/
theorem exists_beforeFirst_verdict :
    ∃ before, BeforeFirst operation.MatchesAt (operation.trials values targets) before
        (operation.verdict values targets).matched ∧
      (operation.verdict values targets).unsupported = operation.refusals before := by
  refine exists_beforeFirst (answers_subjects targets ?_)
  intro subject mem
  obtain ⟨value, -, mem⟩ := List.mem_flatMap.1 mem
  exact Operation.isSubject_of_mem subject mem

/-- Where nothing matches, nothing is missing. -/
theorem unsupported_of_not_matched
    (unmatched : (operation.verdict values targets).matched = false) :
    (operation.verdict values targets).unsupported =
      operation.refusals (operation.trials values targets) := by
  obtain ⟨before, cut, noted⟩ := exists_beforeFirst_verdict values operation targets
  rw [unmatched] at cut
  rw [noted, cut.eq_all]

/-- A strict verdict is the verdict, or the first comparison that is not defined. -/
theorem outcome_matchesValues_strict :
    (matchesValues true values operation targets).outcome =
      (operation.verdict values targets).strict.mapError .unsupported := by
  simp [matchesValues, evaluateNoting, evaluate_eq, Except.bind]

end Verdicts

/-- A verdict is strictly an error if there is no match and something to note. -/
theorem Verdict.strict_eq_error_iff {verdict : Verdict} {u : Unsupported} :
    verdict.strict = .error u ↔
      verdict.matched = false ∧ ∃ rest, verdict.unsupported = u :: rest := by
  rw [strict]
  cases verdict.matched with
  | true => simp
  | false => cases verdict.unsupported <;> simp

/-- And else it is what it is. -/
theorem Verdict.strict_eq_ok {verdict : Verdict}
    (fine : ¬(verdict.matched = false ∧ verdict.unsupported ≠ [])) :
    verdict.strict = .ok verdict.matched := by
  rw [strict]
  cases matched : verdict.matched with
  | true => rfl
  | false =>
    have nothing : verdict.unsupported = [] := by simpa [matched] using fine
    rw [nothing]
    rfl

/-! ### Strict matching and explaining -/

/-- Strict matching fails with the first comparison that is not defined, where nothing matches. -/
theorem matchesValues_strict_eq_error_iff (values : List Document) (operation : Operation)
    (targets : List String) (error : MatchError) :
    (matchesValues true values operation targets).outcome = .error error ↔
      (operation.verdict values targets).matched = false ∧ ∃ first rest,
        (operation.verdict values targets).unsupported = first :: rest ∧
          error = .unsupported first := by
  rw [outcome_matchesValues_strict]
  constructor
  · intro failed
    cases strict : (operation.verdict values targets).strict with
    | ok matched =>
      rw [strict] at failed
      cases failed
    | error u =>
      rw [strict] at failed
      obtain ⟨unmatched, rest, noted⟩ := Verdict.strict_eq_error_iff.1 strict
      exact ⟨unmatched, u, rest, noted, (Except.error.inj failed).symm⟩
  · rintro ⟨unmatched, first, rest, noted, rfl⟩
    rw [Verdict.strict_eq_error_iff.2 ⟨unmatched, rest, noted⟩]
    rfl

/-- A filter is called unsupported if strict matching fails on what its query leads to. -/
theorem isUnsupported_iff (filter : Filter) (values : List Document) :
    (Outcome.mk filter values (filter.operation.verdict values filter.values)).isUnsupported =
        true ↔
      ∃ error, (matchesValues true values filter.operation filter.values).outcome =
        .error error := by
  simp only [matchesValues_strict_eq_error_iff, Outcome.isUnsupported, Bool.and_eq_true,
    Bool.not_eq_true', List.isEmpty_eq_false_iff]
  constructor
  · rintro ⟨unmatched, noted⟩
    obtain ⟨first, rest, some⟩ := List.exists_cons_of_ne_nil noted
    exact ⟨_, unmatched, first, rest, some, rfl⟩
  · rintro ⟨-, unmatched, first, rest, some, -⟩
    exact ⟨unmatched, some ▸ List.cons_ne_nil first rest⟩

/-- **Comparisons that are not defined.** Evaluation returns, and what it notes are those of its
trials before the first match that are not defined, in order and each once; if nothing matches,
these are all that there are. Strict matching fails exactly if nothing matches and there is such a
comparison, with the first one, and is else the same as matching. Explaining a filter reports the
list for the values that its query leads to, and calls the filter unsupported exactly if strict
matching would fail on them. -/
theorem unsupported_comparisons :
    (∀ values operation targets, ∃ verdict before,
      evaluate values operation targets = .ok verdict ∧
      BeforeFirst operation.MatchesAt (operation.trials values targets) before verdict.matched ∧
      verdict.unsupported = operation.refusals before ∧
      (verdict.matched = false →
        verdict.unsupported = operation.refusals (operation.trials values targets)) ∧
      (matchesValues false values operation targets).outcome = .ok verdict.matched ∧
      (∀ error, (matchesValues true values operation targets).outcome = .error error ↔
        verdict.matched = false ∧
          ∃ first rest, verdict.unsupported = first :: rest ∧ error = .unsupported first) ∧
      (¬(verdict.matched = false ∧ verdict.unsupported ≠ []) →
        (matchesValues true values operation targets).outcome = .ok verdict.matched)) ∧
    ∀ (doc : Document) (filter : Filter) (path : Query), Query.parse filter.query = .ok path →
      ∃ found, (explain doc filter).outcome = .ok found ∧ found.values = path.resolve doc ∧
        evaluate found.values filter.operation filter.values = .ok found.verdict ∧
        (found.isUnsupported = true ↔ ∃ error,
          (matchesValues true found.values filter.operation filter.values).outcome =
            .error error) := by
  constructor
  · intro values operation targets
    obtain ⟨before, cut, noted⟩ := exists_beforeFirst_verdict values operation targets
    refine ⟨operation.verdict values targets, before, evaluate_eq .., cut, noted,
      unsupported_of_not_matched values operation targets, outcome_matchesValues ..,
      matchesValues_strict_eq_error_iff values operation targets, fun fine => ?_⟩
    rw [outcome_matchesValues_strict, Verdict.strict_eq_ok fine]
    rfl
  · intro doc filter path read
    exact ⟨_, outcome_explain read doc, rfl, evaluate_eq .., isUnsupported_iff filter _⟩

/-- A word and an object before a match, and the same without the match. -/
theorem unsupported_comparisons_before :
    let word : Document := .string "x"
    let nested : Document := .array [.object [("b", .null)]]
    let doc : Document := .object [("a", .array [word, nested, .number (.int 1), .null])]
    let filter : Filter := ⟨"\"a\"", .greater, ["0"], by decide⟩
    let noted : List Unsupported :=
      [⟨.greater, word, ["0"]⟩, ⟨.greater, .object [("b", .null)], ["0"]⟩]
    (∃ path found, Query.parse filter.query = .ok path ∧ (explain doc filter).outcome = .ok found ∧
      found.verdict.matched = true ∧ found.verdict.unsupported = noted ∧
      found.isUnsupported = false ∧
      (matchesValues true found.values .greater ["0"]).outcome = .ok true) ∧
    (matchesValues true [word, nested] .greater ["0"]).outcome =
      .error (.unsupported ⟨.greater, word, ["0"]⟩) := by
  intro word nested doc filter noted
  have read : Query.parse "\"a\"" = .ok ⟨"\"a\"", [.key "a"]⟩ :=
    Query.parse_eq_ok_iff.2 ⟨⟨⟨[.plain 'a' (by decide)], by decide⟩, []⟩, rfl, by decide, rfl⟩
  have resolved : Query.resolve ⟨"\"a\"", [.key "a"]⟩ doc =
      [.array [word, nested, .number (.int 1), .null]] := rfl
  have found_run : evaluate [.array [word, nested, .number (.int 1), .null]] .greater ["0"] =
      .ok ⟨true, noted.map .unsupported ++ [.matched (.number (.int 1)) "0" .greater]⟩ := rfl
  have missed_run : evaluate [word, nested] .greater ["0"] =
      .ok ⟨false, noted.map .unsupported⟩ := rfl
  obtain ⟨evaluations, explanations⟩ := unsupported_comparisons
  obtain ⟨found, explained, values, verdict, -⟩ := explanations doc filter _ read
  rw [values, resolved] at verdict
  have same : found.verdict = _ := Except.ok.inj (verdict.symm.trans found_run)
  obtain ⟨matched, _, run, -, -, -, -, -, strict⟩ := evaluations
    [.array [word, nested, .number (.int 1), .null]] .greater ["0"]
  obtain rfl := Except.ok.inj (run.symm.trans found_run)
  obtain ⟨missed, _, run, -, -, -, -, fails, -⟩ := evaluations [word, nested] .greater ["0"]
  obtain rfl := Except.ok.inj (run.symm.trans missed_run)
  refine ⟨⟨_, found, read, explained, ?_, ?_, ?_, ?_⟩, ?_⟩
  · rw [same]
  · rw [same]
    rfl
  · rw [Outcome.isUnsupported, same]
    rfl
  · rw [values, resolved]
    exact strict fun unmatched => Bool.noConfusion unmatched.1
  · exact (fails _).2 ⟨rfl, _, _, rfl, rfl⟩

end DocumentFilter
