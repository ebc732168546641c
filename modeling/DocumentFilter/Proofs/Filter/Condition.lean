import DocumentFilter.Filter.Matching
import DocumentFilter.Proofs.Filter.Evaluation
import DocumentFilter.Proofs.Trace

/-!
# The condition that an operation sets

What it means that one of several values stands in an operation to one of several texts,
said without evaluating anything. Under `=`, `!=`, `>` and `<` the values speak through
their leaves, objects among them left out; `~` asks the values themselves. Two scalars are
ordered if they are of one ordered kind, two numbers or two dates.

Since evaluation is a run over attempts that looks for a match, it finds one exactly if
some attempt of some subject is a match. It remains to read off, operation by operation,
which attempts those are.

* `DocumentFilter.Operation.Holds`: the condition;
* `DocumentFilter.matched_verdict_iff_holds`: the verdict of evaluation decides it.
-/

namespace DocumentFilter

/-! ### The condition -/

/-- **The order of scalars**: of two numbers or of two dates, the first is below the
second. -/
inductive Scalar.Below : Scalar → Scalar → Prop
  | numbers {a b : Scalar} {m n : Number} (left : a.sense = .number m)
      (right : b.sense = .number n) (below : m.below n = true) : Scalar.Below a b
  | dates {a b : Scalar} {s t : Moment} (left : a.sense = .date s)
      (right : b.sense = .date t) (before : s.before t = true) : Scalar.Below a b

namespace Document

/-- A document with a scalar above that of a text. -/
def Exceeds (doc : Document) (target : String) : Prop :=
  ∃ a, Scalar.ofDocument doc = .ok a ∧ (Scalar.ofText target).Below a

/-- A document with a scalar below that of a text. -/
def FallsBelow (doc : Document) (target : String) : Prop :=
  ∃ a, Scalar.ofDocument doc = .ok a ∧ a.Below (.ofText target)

/-- **A document that has a text**: as a part, as an item that is no collection, or as the
name of a field. -/
inductive Contains (target : String) : Document → Prop
  | part {s : String} (infixed : target.toList <:+: s.toList) : Contains target (.string s)
  | item {items : List Document} {item : Document} (mem : item ∈ items)
      (scalar : item.isCollection = false) (equal : item.equals target = true) :
      Contains target (.array items)
  | field {fields : List (String × Document)} {value : Document}
      (mem : (target, value) ∈ fields) : Contains target (.object fields)

end Document

/-- **The condition that an operation sets** to several values and several targets. -/
def Operation.Holds (operation : Operation) (values : List Document) (targets : List String) :
    Prop :=
  match operation with
  | .equal => ∃ value ∈ values, ∃ leaf ∈ value.leaves,
      leaf.isObject = false ∧ ∃ target ∈ targets, leaf.equals target = true
  | .notEqual => ∃ value ∈ values, ∃ leaf ∈ value.leaves,
      leaf.isObject = false ∧ ∀ target ∈ targets, leaf.equals target = false
  | .greater => ∃ value ∈ values, ∃ leaf ∈ value.leaves,
      leaf.isObject = false ∧ ∃ target ∈ targets, leaf.Exceeds target
  | .lower => ∃ value ∈ values, ∃ leaf ∈ value.leaves,
      leaf.isObject = false ∧ ∃ target ∈ targets, leaf.FallsBelow target
  | .contains => ∃ value ∈ values, ∃ target ∈ targets, value.Contains target

/-! ### Single comparisons -/

theorem Scalar.below?_eq_some_true_iff {a b : Scalar} :
    a.below? b = some true ↔ a.Below b := by
  constructor
  · intro h
    unfold below? at h
    split at h
    · rename_i m n left right
      exact .numbers left right (Option.some.inj h)
    · rename_i s t left right
      exact .dates left right (Option.some.inj h)
    · cases h
  · rintro (⟨left, right, below⟩ | ⟨left, right, before⟩)
    · rw [below?, left, right]
      exact congrArg some below
    · rw [below?, left, right]
      exact congrArg some before

/-- The search for a part of a text finds it wherever it occurs. -/
theorem isInfix_iff {part cs : List Char} : isInfix part cs = true ↔ part <:+: cs := by
  induction cs with
  | nil => simp [isInfix]
  | cons c cs ih =>
    rw [isInfix, Bool.or_eq_true, List.isPrefixOf_iff_prefix, ih, List.infix_cons_iff]

theorem Document.isSome_lookup_iff {name : String} {fields : List (String × Document)} :
    (Document.lookup name fields).isSome = true ↔ ∃ value, (name, value) ∈ fields := by
  induction fields with
  | nil => simp [lookup]
  | cons field rest ih =>
    obtain ⟨key, value⟩ := field
    by_cases h : key = name
    · subst h
      simp only [lookup, if_true, Option.isSome_some, true_iff]
      exact ⟨value, List.mem_cons_self ..⟩
    · simp only [lookup, if_neg h, ih]
      simp [Ne.symm h]

theorem Document.contains?_eq_some_true_iff {value : Document} {target : String} :
    value.contains? target = some true ↔ value.Contains target := by
  constructor
  · intro h
    unfold contains? at h
    split at h
    · exact .part (isInfix_iff.1 (Option.some.inj h))
    · obtain ⟨item, mem, found⟩ := List.any_eq_true.1 (Option.some.inj h)
      rw [Bool.and_eq_true, Bool.not_eq_true'] at found
      exact .item mem found.1 found.2
    · obtain ⟨value, mem⟩ := isSome_lookup_iff.1 (Option.some.inj h)
      exact .field mem
    · cases h
  · intro h
    cases h with
    | part infixed => exact congrArg some (isInfix_iff.2 infixed)
    | item mem scalar equal =>
      exact congrArg some (List.any_eq_true.2 ⟨_, mem, by rw [scalar, equal]; rfl⟩)
    | field mem => exact congrArg some (isSome_lookup_iff.2 ⟨_, mem⟩)

section Compare

variable {value : Document} {target : String}

theorem compare_equal_iff :
    compare .equal value target = .ok (some true) ↔ value.equals target = true := by
  by_cases h : value.isCollection
  · -- The comparison of a collection is an error, and a collection equals no text.
    cases value with
    | array items => exact iff_of_false (fun h => by cases h) Bool.false_ne_true
    | object fields => exact iff_of_false (fun h => by cases h) Bool.false_ne_true
    | _ => cases h
  · simp [compare_equal (Bool.eq_false_iff.2 h)]

theorem compare_greater_iff :
    compare .greater value target = .ok (some true) ↔ value.Exceeds target := by
  cases scalar : Scalar.ofDocument value with
  | ok a =>
    simp [compare_greater scalar, Document.Exceeds, scalar, Scalar.below?_eq_some_true_iff]
  | error kind => simp [compare, Document.Exceeds, scalar, bind, Except.bind]

theorem compare_lower_iff :
    compare .lower value target = .ok (some true) ↔ value.FallsBelow target := by
  cases scalar : Scalar.ofDocument value with
  | ok a =>
    simp [compare_lower scalar, Document.FallsBelow, scalar, Scalar.below?_eq_some_true_iff]
  | error kind => simp [compare, Document.FallsBelow, scalar, bind, Except.bind]

theorem compare_contains_iff :
    compare .contains value target = .ok (some true) ↔ value.Contains target := by
  rw [compare_contains, Except.ok.injEq, Document.contains?_eq_some_true_iff]

end Compare

/-! ### Subjects -/

/-- A subject has a match if one of its attempts is one. -/
def Operation.Matches (operation : Operation) (targets : List String) (subject : Document) :
    Prop :=
  ∃ verdict ∈ attempts operation targets subject, verdict.matched = true

theorem matches_notEqual_iff {targets : List String} {subject : Document} :
    Operation.notEqual.Matches targets subject ↔
      subject.isObject = false ∧ ∀ target ∈ targets, subject.equals target = false := by
  by_cases object : subject.isObject
  · simp [Operation.Matches, attempts, object, Verdict.refused]
  · simp [Operation.Matches, attempts, object]

/-- Every operation but `!=` tries the targets one by one. -/
theorem matches_iff {operation : Operation} (h : operation ≠ .notEqual) {targets : List String}
    {subject : Document} :
    operation.Matches targets subject ↔
      (operation ≠ .contains → subject.isObject = false) ∧
        ∃ target ∈ targets, compare operation subject target = .ok (some true) := by
  by_cases refused : operation ≠ .contains ∧ subject.isObject
  · simp [Operation.Matches, attempts, refused, Verdict.refused]
  · have accepted : operation ≠ .contains → subject.isObject = false := fun not_contains =>
      Bool.eq_false_iff.2 fun object => refused ⟨not_contains, object⟩
    rw [Operation.Matches, attempts, if_neg refused, if_neg h]
    constructor
    · rintro ⟨verdict, tried, matched⟩
      obtain ⟨target, mem, rfl⟩ := List.mem_map.1 tried
      exact ⟨accepted, target, mem, matched_attempt_iff.1 matched⟩
    · rintro ⟨-, target, mem, found⟩
      exact ⟨_, List.mem_map.2 ⟨target, mem, rfl⟩, matched_attempt_iff.2 found⟩

theorem matches_equal_iff {targets : List String} {subject : Document} :
    Operation.equal.Matches targets subject ↔
      subject.isObject = false ∧ ∃ target ∈ targets, subject.equals target = true := by
  simp [matches_iff, compare_equal_iff]

theorem matches_greater_iff {targets : List String} {subject : Document} :
    Operation.greater.Matches targets subject ↔
      subject.isObject = false ∧ ∃ target ∈ targets, subject.Exceeds target := by
  simp [matches_iff, compare_greater_iff]

theorem matches_lower_iff {targets : List String} {subject : Document} :
    Operation.lower.Matches targets subject ↔
      subject.isObject = false ∧ ∃ target ∈ targets, subject.FallsBelow target := by
  simp [matches_iff, compare_lower_iff]

theorem matches_contains_iff {targets : List String} {subject : Document} :
    Operation.contains.Matches targets subject ↔
      ∃ target ∈ targets, subject.Contains target := by
  simp [matches_iff, compare_contains_iff]

/-- The verdict is a match if some subject of some value has one. -/
theorem matched_verdict_iff {operation : Operation} {values : List Document}
    {targets : List String} :
    (operation.verdict values targets).matched = true ↔
      ∃ value ∈ values, ∃ subject ∈ operation.subjects value,
        operation.Matches targets subject := by
  simp only [Operation.verdict, Verdict.matched_upTo, List.any_eq_true, List.mem_flatMap,
    Operation.Matches]
  constructor
  · rintro ⟨verdict, ⟨subject, ⟨value, value_mem, subject_mem⟩, mem⟩, matched⟩
    exact ⟨value, value_mem, subject, subject_mem, verdict, mem, matched⟩
  · rintro ⟨value, value_mem, subject, subject_mem, verdict, mem, matched⟩
    exact ⟨verdict, ⟨subject, ⟨value, value_mem, subject_mem⟩, mem⟩, matched⟩

/-- **The verdict decides the condition** that the operation sets. -/
theorem matched_verdict_iff_holds {operation : Operation} {values : List Document}
    {targets : List String} :
    (operation.verdict values targets).matched = true ↔ operation.Holds values targets := by
  rw [matched_verdict_iff]
  cases operation with
  | equal => simp only [matches_equal_iff]; rfl
  | notEqual => simp only [matches_notEqual_iff]; rfl
  | contains => simp [matches_contains_iff, Operation.subjects, Operation.Holds]
  | greater => simp only [matches_greater_iff]; rfl
  | lower => simp only [matches_lower_iff]; rfl

instance (operation : Operation) (values : List Document) (targets : List String) :
    Decidable (operation.Holds values targets) :=
  decidable_of_iff _ matched_verdict_iff_holds

example : Operation.greater.Holds [.array [.string "x", .array [.number (.int 21)]]] ["18"] := by
  decide

/-- **Whether values match is decided by the condition** that the operation sets to them and
the targets: matching has no errors, and its verdict is true exactly if the condition holds. -/
theorem matchesValues_iff_holds (values : List Document) (operation : Operation)
    (targets : List String) :
    ∃ matched, (matchesValues false values operation targets).outcome = .ok matched ∧
      (matched = true ↔ operation.Holds values targets) := by
  refine ⟨(operation.verdict values targets).matched, ?_, matched_verdict_iff_holds⟩
  simp [matchesValues, evaluateNoting, evaluate_eq, Except.bind]

end DocumentFilter
