import DocumentFilter.Proofs.Document.Legible
import DocumentFilter.Proofs.Filter.Conjunction
import Mathlib.Data.List.Forall2

/-!
# The order of fields does not matter

The fields of an object have an order, the one in which they were written, but no verdict depends
on it. This is a statement about two runs: on documents that differ in the order of fields only, at
any depth, a query leads to as many values, which again differ in nothing else, and filters have
the same verdict.

The relation between the documents is carried through everything that a run does with them. Lists
keep their order, so they are related item by item (`List.Forall₂`), and a list that is mapped,
filtered or put together by a step stays related because the step is. Fields are only ever looked
up, and what a lookup finds depends on the name alone (`DocumentFilter.Document.Reordered.lookup`).
At the end stand single comparisons, and those are the same
(`DocumentFilter.Document.Reordered.compare_eq`).

* `DocumentFilter.Document.Reordered`: documents that differ in the order of fields only;
* `DocumentFilter.Document.Reordered.ofFields`: fields that are permuted;
* `DocumentFilter.Document.Reordered.apply`, `DocumentFilter.Document.Reordered.resolve`: the
  values that steps lead to;
* `DocumentFilter.matchesAll_reordered`: **the same verdicts**.
-/

namespace DocumentFilter

/-! ### Related lists and options -/

/-- An item of the one list is related to one of the other. -/
theorem exists_of_mem_forall₂ {α β : Type} {R : α → β → Prop} {as : List α} {bs : List β} {a : α}
    (related : List.Forall₂ R as bs) (mem : a ∈ as) : ∃ b ∈ bs, R a b := by
  induction related with
  | nil => cases mem
  | cons first _ ih =>
    rcases List.mem_cons.1 mem with rfl | mem
    · exact ⟨_, List.mem_cons_self, first⟩
    · obtain ⟨b, mem', later⟩ := ih mem
      exact ⟨b, List.mem_cons_of_mem _ mem', later⟩

/-- Of lists that are related item by item either both or neither have an item of a kind that the
relation respects. -/
theorem exists_mem_iff_of_forall₂ {α β : Type} {R : α → β → Prop} {p : α → Prop} {q : β → Prop}
    {as : List α} {bs : List β} (related : List.Forall₂ R as bs)
    (respects : ∀ {a b}, R a b → (p a ↔ q b)) : (∃ a ∈ as, p a) ↔ ∃ b ∈ bs, q b := by
  constructor
  · rintro ⟨a, mem, holds⟩
    obtain ⟨b, mem', same⟩ := exists_of_mem_forall₂ related mem
    exact ⟨b, mem', (respects same).1 holds⟩
  · rintro ⟨b, mem, holds⟩
    obtain ⟨a, mem', same⟩ := exists_of_mem_forall₂ related.flip mem
    exact ⟨a, mem', (respects same).2 holds⟩

theorem isSome_eq_of_rel {α β : Type} {R : α → β → Prop} {a : Option α} {b : Option β}
    (related : Option.Rel R a b) : a.isSome = b.isSome := by
  cases related <;> rfl

theorem forall₂_toList_of_rel {α β : Type} {R : α → β → Prop} {a : Option α} {b : Option β}
    (related : Option.Rel R a b) : List.Forall₂ R a.toList b.toList := by
  cases related with
  | none => exact .nil
  | some related => exact .cons related .nil

namespace Document

/-! ### The relation -/

/-- **Documents that differ in the order of fields only**, at any depth. Arrays have related items
in the same order. Objects have the same names in some order, and related values under each; that
the names are different is not asked for, since related fields of one name do not tell apart. -/
inductive Reordered : Document → Document → Prop
  | null : Reordered .null .null
  | bool (b : Bool) : Reordered (.bool b) (.bool b)
  | number (n : Number) : Reordered (.number n) (.number n)
  | string (s : String) : Reordered (.string s) (.string s)
  | array {items others : List Document} (length : items.length = others.length)
      (each : ∀ {item other}, (item, other) ∈ items.zip others → Reordered item other) :
      Reordered (.array items) (.array others)
  | object {fields others : List (String × Document)}
      (names : (fields.map Prod.fst).Perm (others.map Prod.fst))
      (each : ∀ {name value other}, (name, value) ∈ fields → (name, other) ∈ others →
        Reordered value other) :
      Reordered (.object fields) (.object others)

/-- Arrays are related item by item. -/
theorem Reordered.ofItems {items others : List Document}
    (same : List.Forall₂ Reordered items others) : Reordered (.array items) (.array others) :=
  .array same.length_eq (List.forall₂_iff_zip.1 same).2

/-- **Objects are related** if the values of one are replaced by related ones, where they stand,
and its fields are permuted then. Their names must be different. -/
theorem Reordered.ofFields {fields replaced others : List (String × Document)}
    (nodup : (fields.map Prod.fst).Nodup) (perm : replaced.Perm others)
    (same : List.Forall₂ (fun field other => field.1 = other.1 ∧ field.2.Reordered other.2)
      fields replaced) :
    Reordered (.object fields) (.object others) := by
  have names : fields.map Prod.fst = replaced.map Prod.fst := by
    rw [← List.forall₂_eq_eq_eq, List.forall₂_map_left_iff, List.forall₂_map_right_iff]
    exact same.imp fun _ _ related => related.1
  refine .object (names ▸ perm.map _) fun {name value other} mem mem' => ?_
  -- the value under the name in the one is the only one there, so it is what was replaced
  obtain ⟨⟨name', value'⟩, mem'', rfl, related⟩ :=
    exists_of_mem_forall₂ same.flip (perm.mem_iff.2 mem')
  cases List.inj_on_of_nodup_map nodup mem mem'' rfl
  exact related

namespace Reordered

variable {doc other : Document} {fields others : List (String × Document)}

/-! ### What is the same in both -/

theorem isObject_eq (same : doc.Reordered other) : doc.isObject = other.isObject := by
  cases same <;> rfl

theorem isCollection_eq (same : doc.Reordered other) : doc.isCollection = other.isCollection := by
  cases same <;> rfl

/-- What has a scalar has no fields. -/
theorem ofDocument_eq (same : doc.Reordered other) :
    Scalar.ofDocument doc = Scalar.ofDocument other := by
  cases same <;> rfl

theorem equals_eq (same : doc.Reordered other) (target : String) :
    doc.equals target = other.equals target := by
  rw [equals, equals, same.ofDocument_eq]

/-! ### Fields -/

/-- **A lookup** finds related values, or nothing in both objects. -/
theorem lookup (same : Reordered (.object fields) (.object others)) (name : String) :
    Option.Rel Reordered (Document.lookup name fields) (Document.lookup name others) := by
  cases same with
  | object names each =>
    have named {fields : List (String × Document)} :
        (Document.lookup name fields).isSome = true ↔ name ∈ fields.map Prod.fst := by
      simp only [isSome_lookup_iff, List.mem_map, Prod.exists, exists_and_right, exists_eq_right]
    have both : (Document.lookup name fields).isSome = (Document.lookup name others).isSome := by
      rw [Bool.eq_iff_iff, named, named, names.mem_iff]
    cases found : Document.lookup name fields with
    | none =>
      cases found' : Document.lookup name others with
      | none => exact .none
      | some value => rw [found, found'] at both; cases both
    | some value =>
      cases found' : Document.lookup name others with
      | none => rw [found, found'] at both; cases both
      | some value' => exact .some (each (mem_of_lookup found) (mem_of_lookup found'))

theorem field? (same : doc.Reordered other) (name : String) :
    Option.Rel Reordered (doc.field? name) (other.field? name) := by
  cases id same with
  | object names each => exact lookup same name
  | _ => exact .none

theorem hasField_eq (same : doc.Reordered other) (name : String) :
    doc.hasField name = other.hasField name :=
  isSome_eq_of_rel (same.field? name)

theorem hasShape_eq (same : doc.Reordered other) (shape : List String) :
    doc.hasShape shape = other.hasShape shape := by
  rw [hasShape, hasShape, same.isObject_eq, funext same.hasField_eq]

/-! ### Queries -/

theorem items {items others : List Document} (same : Reordered (.array items) (.array others)) :
    List.Forall₂ Reordered items others := by
  cases same with
  | array length each => exact List.forall₂_iff_zip.2 ⟨length, each⟩

/-- **One step** leads to related values. -/
theorem apply (same : doc.Reordered other) (step : Step) :
    List.Forall₂ Reordered (step.apply doc) (step.apply other) := by
  cases step with
  | key name => exact forall₂_toList_of_rel (same.field? name)
  | aggregate shape =>
    cases id same with
    | array length each =>
      refine List.rel_filter (fun item other related => ?_) same.items
      exact Bool.eq_iff_iff.1 (related.hasShape_eq shape)
    | _ => exact .nil

/-- **Several steps** lead to related values from related candidates. -/
theorem advance (steps : List Step) {docs others : List Document}
    (same : List.Forall₂ Reordered docs others) :
    List.Forall₂ Reordered (Query.advance steps docs) (Query.advance steps others) := by
  induction steps generalizing docs others with
  | nil => exact same
  | cons step rest ih => exact ih (List.rel_flatMap same fun _ _ same => same.apply step)

theorem resolve (same : doc.Reordered other) (query : Query) :
    List.Forall₂ Reordered (query.resolve doc) (query.resolve other) :=
  advance query.steps (.cons same .nil)

/-! ### Comparisons -/

theorem contains?_eq (same : doc.Reordered other) (target : String) :
    doc.contains? target = other.contains? target := by
  cases id same with
  | array length each =>
    refine congrArg some (Bool.eq_iff_iff.2 ?_)
    rw [List.any_eq_true, List.any_eq_true]
    refine exists_mem_iff_of_forall₂ same.items fun related => ?_
    rw [related.isCollection_eq, related.equals_eq]
  | object names each => exact congrArg some (isSome_eq_of_rel (same.lookup target))
  | _ => rfl

/-- **A comparison** finds the same. -/
theorem compare_eq (same : doc.Reordered other) (operation : Operation) (target : String) :
    compare operation doc target = compare operation other target := by
  cases operation with
  | equal => rw [compare, compare, equalTo, equalTo, same.ofDocument_eq]
  | notEqual => rw [compare, compare, equalTo, equalTo, same.ofDocument_eq]
  | contains => rw [compare_contains, compare_contains, same.contains?_eq]
  | greater => rw [compare, compare, same.ofDocument_eq]
  | lower => rw [compare, compare, same.ofDocument_eq]

theorem matches_iff (same : doc.Reordered other) (operation : Operation) (targets : List String) :
    operation.Matches targets doc ↔ operation.Matches targets other := by
  -- only `!=` looks at all targets at once
  by_cases all : operation = .notEqual
  · rw [all, matches_notEqual_iff, matches_notEqual_iff, same.isObject_eq]
    simp only [same.equals_eq]
  · rw [DocumentFilter.matches_iff all, DocumentFilter.matches_iff all, same.isObject_eq]
    simp only [same.compare_eq]

/-- **Unfolding arrays** gives related leaves. -/
theorem leaves (same : doc.Reordered other) :
    List.Forall₂ Reordered doc.leaves other.leaves := by
  have scalar {doc : Document} (single : doc.isCollection = false) (same : doc.Reordered doc) :
      List.Forall₂ Reordered doc.leaves doc.leaves := by
    rw [leaves_scalar single]
    exact .cons same .nil
  induction same with
  | null => exact scalar rfl .null
  | bool b => exact scalar rfl (.bool b)
  | number n => exact scalar rfl (.number n)
  | string s => exact scalar rfl (.string s)
  | array length each ih =>
    rw [leaves_array, leaves_array]
    -- the items are related through their leaves here, which is what the induction gives
    exact List.rel_flatMap (R := fun item other => List.Forall₂ Reordered item.leaves other.leaves)
      (List.forall₂_iff_zip.2 ⟨length, ih⟩) fun _ _ leaves => leaves
  | object names each ih =>
    rw [leaves_object, leaves_object]
    exact .cons (.object names each) .nil

theorem subjects (same : doc.Reordered other) (operation : Operation) :
    List.Forall₂ Reordered (operation.subjects doc) (operation.subjects other) := by
  rw [Operation.subjects, Operation.subjects]
  split
  · exact .cons same .nil
  · exact same.leaves

end Reordered

end Document

/-! ### Verdicts -/

/-- **Related values** have a match both or neither. -/
theorem matched_verdict_reordered {values others : List Document}
    (same : List.Forall₂ Document.Reordered values others) (operation : Operation)
    (targets : List String) :
    (operation.verdict values targets).matched = (operation.verdict others targets).matched := by
  rw [Bool.eq_iff_iff, matched_verdict_iff, matched_verdict_iff]
  refine exists_mem_iff_of_forall₂ same fun related => ?_
  exact exists_mem_iff_of_forall₂ (related.subjects operation) fun related =>
    related.matches_iff operation targets

theorem matchesOn_reordered {doc other : Document} (same : doc.Reordered other)
    {filter : Filter} (wellFormed : filter.WellFormed) :
    filter.MatchesOn doc ↔ filter.MatchesOn other := by
  obtain ⟨path, parsed⟩ := wellFormed
  rw [matchesOn_iff parsed, matchesOn_iff parsed, matched_verdict_reordered (same.resolve path)]

/-- **The order of fields does not matter.** On documents that differ in it only, filters have the
same verdict or fail with the same malformed query, and a query leads to as many values, of which
those in one place differ in the order of fields only. -/
theorem matchesAll_reordered {doc other : Document} (same : doc.Reordered other) :
    (∀ filters, ((∃ verdict, (matchesAll doc filters).outcome = .ok verdict ∧
          (matchesAll other filters).outcome = .ok verdict) ∨
        ∃ error, (matchesAll doc filters).outcome = .error (.query error) ∧
          (matchesAll other filters).outcome = .error (.query error))) ∧
      ∀ query : Query,
        List.Forall₂ Document.Reordered (query.resolve doc) (query.resolve other) := by
  refine ⟨fun filters => ?_, same.resolve⟩
  rcases wellFormed_or_first_malformed filters with
    wellFormed | ⟨before, filter, after, error, split, earlier, malformed⟩
  · obtain ⟨verdict, returned, all⟩ := exists_matchesAll doc wellFormed
    obtain ⟨verdict', returned', all'⟩ := exists_matchesAll other wellFormed
    have each : (∀ filter ∈ filters, filter.MatchesOn doc) ↔
        ∀ filter ∈ filters, filter.MatchesOn other :=
      forall₂_congr fun filter mem => matchesOn_reordered same (wellFormed filter mem)
    have agree : verdict = verdict' := by rw [Bool.eq_iff_iff, all, all', each]
    exact .inl ⟨verdict, returned, agree ▸ returned'⟩
  · -- the queries are read before any document is looked at
    have failure (doc : Document) :
        (matchesAll doc filters).outcome = .error (.query error) :=
      (matchesAll_eq_error_iff doc).2 ⟨before, filter, after, error, split, earlier, malformed, rfl⟩
    exact .inr ⟨error, failure doc, failure other⟩

/-- Two documents that differ in the order of fields in an object and in one of the items below. -/
theorem matchesAll_reordered_nested :
    let doc : Document :=
      .object [("a", .array [.object [("b", .string "1"), ("c", .null)]]), ("d", .bool true)]
    let other : Document :=
      .object [("d", .bool true), ("a", .array [.object [("c", .null), ("b", .string "1")]])]
    let filter : Filter := ⟨"\"a\"", .contains, ["1"], by decide⟩
    let query : Query := ⟨"", [.key "a", .aggregate ["b", "c"], .key "b"]⟩
    doc.Reordered other ∧
      ((∃ verdict, (matchesAll doc [filter]).outcome = .ok verdict ∧
          (matchesAll other [filter]).outcome = .ok verdict) ∨
        ∃ error, (matchesAll doc [filter]).outcome = .error (.query error) ∧
          (matchesAll other [filter]).outcome = .error (.query error)) ∧
      List.Forall₂ Document.Reordered (query.resolve doc) (query.resolve other) := by
  intro doc other filter query
  have item : Document.Reordered (.object [("b", .string "1"), ("c", .null)])
      (.object [("c", .null), ("b", .string "1")]) :=
    .ofFields (by decide) (.swap ..) (.cons ⟨rfl, .string "1"⟩ (.cons ⟨rfl, .null⟩ .nil))
  have same : doc.Reordered other :=
    .ofFields (by decide) (.swap ..)
      (.cons ⟨rfl, .ofItems (.cons item .nil)⟩ (.cons ⟨rfl, .bool true⟩ .nil))
  obtain ⟨verdicts, values⟩ := matchesAll_reordered same
  exact ⟨same, verdicts [filter], values query⟩

end DocumentFilter
