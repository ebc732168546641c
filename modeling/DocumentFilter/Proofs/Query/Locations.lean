import DocumentFilter.Proofs.Filter.Condition
import DocumentFilter.Query.Resolve
import Mathlib.Data.List.Basic

/-!
# Where the values of a query are found

Resolving a query walks through a document breadth first: every step replaces all candidates
at once, and the walk ends early when none is left. Read depth first, a query is a pattern of
**locations**. A location says how to go from the root to a value, by names of fields and
indices of items, and `DocumentFilter.Query.Leads` says which locations a sequence of steps
matches and which value stands there, one step and one move at a time.

The two readings agree, and in the order of the documents: the values that are resolved are
those at the matching locations, each location once, and along the list the indices increase
in the lexicographic order. The depth-first reading is computed by
`DocumentFilter.Query.reach`, which goes on behind a step with each of its branches alone. That
the candidates of the walk never mix – a step on several candidates is the step on each of them,
in order – is `DocumentFilter.Query.advance_eq_flatMap`, and the rest follows from it.

* `DocumentFilter.Query.mem_reach_iff`, `DocumentFilter.Query.pairwise_indices_reach`: the
  depth-first reading finds the matching locations, in order;
* `DocumentFilter.Query.map_snd_reach`: it has the values that are resolved;
* `DocumentFilter.Query.resolve_locations`: **resolving, by locations**.
-/

namespace DocumentFilter

namespace Query

/-! ### Locations -/

/-- A move from a document to one in it: to the field of a name, or to the item at an index,
which counts from zero. -/
inductive Move
  | field (name : String)
  | item (index : Nat)

/-- The index of a move to an item. -/
def Move.index? : Move → Option Nat
  | .field _ => none
  | .item index => some index

/-- A way from a document to one in it. -/
abbrev Location := List Move

/-- The indices on a way. -/
def Location.indices (location : Location) : List Nat :=
  location.filterMap Move.index?

/-- **The locations that a sequence of steps matches** in a document, with the value there. A
key goes from an object to its field; an aggregate goes from an array to one of its items, an
object that has every field of the shape. -/
inductive Leads : List Step → Document → Location → Document → Prop
  | here {doc : Document} : Leads [] doc [] doc
  | key {name : String} {rest : List Step} {fields : List (String × Document)}
      {next value : Document} {location : Location}
      (field : Document.lookup name fields = some next)
      (onward : Leads rest next location value) :
      Leads (.key name :: rest) (.object fields) (.field name :: location) value
  | aggregate {shape : List String} {rest : List Step} {items : List Document} {index : Nat}
      {fields : List (String × Document)} {value : Document} {location : Location}
      (item : items[index]? = some (.object fields))
      (shaped : ∀ name ∈ shape, ∃ value, (name, value) ∈ fields)
      (onward : Leads rest (.object fields) location value) :
      Leads (.aggregate shape :: rest) (.array items) (.item index :: location) value

/-! ### One step -/

/-- **The branches of a step** from a document: the moves that it allows there, each with the
document that it goes to. -/
def branches : Step → Document → List (Move × Document)
  | .key name, doc => (doc.field? name).toList.map fun next => (.field name, next)
  | .aggregate shape, .array items =>
    (items.zipIdx.filter fun item => item.1.hasShape shape).map fun item => (.item item.2, item.1)
  | .aggregate _, _ => []

/-- The branches of a step go to the documents that it leads to. -/
theorem map_snd_branches (step : Step) (doc : Document) :
    (branches step doc).map Prod.snd = step.apply doc := by
  cases step with
  | key name =>
    rw [branches, Step.apply, List.map_map]
    exact List.map_id _
  | aggregate shape =>
    cases doc with
    | array items =>
      have picked : items.zipIdx.filter (fun item => item.1.hasShape shape) =
          items.zipIdx.filter (Document.hasShape shape ∘ Prod.fst) := rfl
      rw [branches, Step.apply, List.map_map, picked]
      change ((items.zipIdx).filter _).map Prod.fst = _
      rw [← List.filter_map, List.zipIdx_map_fst]
    | _ => rfl

theorem hasShape_iff {shape : List String} {doc : Document} :
    doc.hasShape shape = true ↔
      ∃ fields, doc = .object fields ∧ ∀ name ∈ shape, ∃ value, (name, value) ∈ fields := by
  cases doc with
  | object fields =>
    simp only [Document.hasShape, Document.isObject, Bool.true_and, List.all_eq_true,
      Document.hasField, Document.field?, Document.isSome_lookup_iff]
    constructor
    · intro shaped
      exact ⟨fields, rfl, shaped⟩
    · rintro ⟨others, same, shaped⟩
      cases same
      exact shaped
  | _ =>
    refine iff_of_false Bool.false_ne_true ?_
    rintro ⟨fields, same, -⟩
    cases same

theorem mem_branches_key_iff {name : String} {doc next : Document} {move : Move} :
    (move, next) ∈ branches (.key name) doc ↔
      ∃ fields, doc = .object fields ∧ move = .field name ∧
        Document.lookup name fields = some next := by
  cases doc with
  | object fields =>
    simp only [branches, Document.field?, List.mem_map, Option.mem_toList, Prod.mk.injEq]
    constructor
    · rintro ⟨found, field, rfl, rfl⟩
      exact ⟨fields, rfl, rfl, field⟩
    · rintro ⟨others, same, rfl, field⟩
      cases same
      exact ⟨next, field, rfl, rfl⟩
  | _ =>
    refine iff_of_false List.not_mem_nil ?_
    rintro ⟨fields, same, -⟩
    cases same

theorem mem_branches_aggregate_iff {shape : List String} {doc next : Document} {move : Move} :
    (move, next) ∈ branches (.aggregate shape) doc ↔
      ∃ items index, doc = .array items ∧ move = .item index ∧ items[index]? = some next ∧
        next.hasShape shape = true := by
  cases doc with
  | array items =>
    simp only [branches, List.mem_map, List.mem_filter, Prod.mk.injEq, Prod.exists,
      List.mk_mem_zipIdx_iff_getElem?]
    constructor
    · rintro ⟨found, index, ⟨item, shaped⟩, rfl, rfl⟩
      exact ⟨items, index, rfl, rfl, item, shaped⟩
    · rintro ⟨others, index, same, rfl, item, shaped⟩
      cases same
      exact ⟨next, index, ⟨item, shaped⟩, rfl, rfl⟩
  | _ =>
    refine iff_of_false List.not_mem_nil ?_
    rintro ⟨items, index, same, -⟩
    cases same

/-- Of two branches of a step both go to items, the first to the one of the lower index. -/
theorem pairwise_branches (step : Step) (doc : Document) :
    (branches step doc).Pairwise fun first next =>
      ∃ i j, first.1 = .item i ∧ next.1 = .item j ∧ i < j := by
  cases step with
  | key name =>
    cases field : doc.field? name with
    | none => simp [branches, field]
    | some next => simp [branches, field]
  | aggregate shape =>
    cases doc with
    | array items =>
      have increasing : items.zipIdx.Pairwise fun first next => first.2 < next.2 := by
        rw [← List.pairwise_map (f := Prod.snd), List.zipIdx_map_snd]
        exact List.pairwise_lt_range'
      rw [branches, List.pairwise_map]
      refine (increasing.filter _).imp ?_
      intro first next lt
      exact ⟨first.2, next.2, rfl, rfl, lt⟩
    | _ => exact .nil

/-! ### Several steps, depth first -/

/-- **The locations that a sequence of steps matches**, with the values there: the branches of
the first step, each followed to its end before the next. -/
def reach : List Step → Document → List (Location × Document)
  | [], doc => [([], doc)]
  | step :: rest, doc =>
    (branches step doc).flatMap fun branch =>
      (reach rest branch.2).map fun found => (branch.1 :: found.1, found.2)

theorem mem_reach_cons_iff {step : Step} {rest : List Step} {doc value : Document}
    {location : Location} :
    (location, value) ∈ reach (step :: rest) doc ↔
      ∃ move next onward, location = move :: onward ∧ (move, next) ∈ branches step doc ∧
        (onward, value) ∈ reach rest next := by
  simp only [reach, List.mem_flatMap, List.mem_map, Prod.exists, Prod.mk.injEq]
  constructor
  · rintro ⟨move, next, branch, onward, found, mem, rfl, rfl⟩
    exact ⟨move, next, onward, rfl, branch, mem⟩
  · rintro ⟨move, next, onward, rfl, branch, mem⟩
    exact ⟨move, next, branch, onward, value, mem, rfl, rfl⟩

/-- **Following every branch finds the matching locations** and no others. -/
theorem mem_reach_iff {steps : List Step} {doc value : Document} {location : Location} :
    (location, value) ∈ reach steps doc ↔ Leads steps doc location value := by
  induction steps generalizing doc location with
  | nil =>
    constructor
    · intro mem
      cases List.mem_singleton.1 mem
      exact .here
    · rintro ⟨⟩
      exact List.mem_singleton_self _
  | cons step rest ih =>
    rw [mem_reach_cons_iff]
    cases step with
    | key name =>
      simp only [mem_branches_key_iff, ih]
      constructor
      · rintro ⟨-, next, onward, rfl, ⟨fields, rfl, rfl, field⟩, leads⟩
        exact .key field leads
      · rintro ⟨⟩
        rename_i fields next onward field leads
        exact ⟨_, next, onward, rfl, ⟨fields, rfl, rfl, field⟩, leads⟩
    | aggregate shape =>
      simp only [mem_branches_aggregate_iff, hasShape_iff, ih]
      constructor
      · rintro ⟨-, -, onward, rfl, ⟨items, index, rfl, rfl, item, fields, rfl, shaped⟩, leads⟩
        exact .aggregate item shaped leads
      · rintro ⟨⟩
        rename_i items index fields onward item shaped leads
        exact ⟨_, _, onward, rfl, ⟨items, index, rfl, rfl, item, fields, rfl, shaped⟩, leads⟩

/-- **The matching locations come in the order of their indices**: the first index at which
two of them differ is that of the step where their branches part. -/
theorem pairwise_indices_reach (steps : List Step) (doc : Document) :
    (reach steps doc).Pairwise fun first next => first.1.indices < next.1.indices := by
  induction steps generalizing doc with
  | nil => exact List.pairwise_singleton _ _
  | cons step rest ih =>
    rw [reach, List.pairwise_flatMap]
    -- in one branch the first move is the same and the others decide; in two it decides
    refine ⟨fun branch _ => ?_, (pairwise_branches step doc).imp ?_⟩
    · rw [List.pairwise_map]
      refine (ih branch.2).imp ?_
      intro first next lt
      rcases branch with ⟨name | index, _⟩
      · exact lt
      · exact List.cons_lt_cons_self.2 lt
    · rintro ⟨_, doc₁⟩ ⟨_, doc₂⟩ ⟨i, j, rfl, rfl, lt⟩ first mem₁ next mem₂
      obtain ⟨found₁, -, rfl⟩ := List.mem_map.1 mem₁
      obtain ⟨found₂, -, rfl⟩ := List.mem_map.1 mem₂
      exact List.cons_lt_cons_iff.2 (.inl lt)

/-! ### Several steps, breadth first -/

theorem advance_nil (steps : List Step) : advance steps [] = [] := by
  induction steps with
  | nil => rfl
  | cons step rest ih => exact ih

theorem advance_append_steps (steps others : List Step) (docs : List Document) :
    advance (steps ++ others) docs = advance others (advance steps docs) := by
  induction steps generalizing docs with
  | nil => rfl
  | cons step rest ih => exact ih _

/-- **Candidates do not mix**: steps on several candidates are the steps on each of them. -/
theorem advance_eq_flatMap (steps : List Step) (docs : List Document) :
    advance steps docs = docs.flatMap (resolveSteps steps) := by
  induction steps generalizing docs with
  | nil => exact (List.flatMap_singleton' docs).symm
  | cons step rest ih =>
    have single : ∀ doc, resolveSteps (step :: rest) doc =
        (step.apply doc).flatMap (resolveSteps rest) := by
      intro doc
      rw [resolveSteps, advance, ih, List.flatMap_singleton]
    rw [advance, ih, List.flatMap_assoc]
    exact List.flatMap_congr fun doc _ => (single doc).symm

theorem resolveSteps_cons (step : Step) (rest : List Step) (doc : Document) :
    resolveSteps (step :: rest) doc = (step.apply doc).flatMap (resolveSteps rest) := by
  rw [resolveSteps, advance, advance_eq_flatMap, List.flatMap_singleton]

/-- **Steps after steps**: the values of the later ones, from each value of the earlier. -/
theorem resolveSteps_append (steps others : List Step) (doc : Document) :
    resolveSteps (steps ++ others) doc =
      (resolveSteps steps doc).flatMap (resolveSteps others) := by
  rw [resolveSteps, advance_append_steps, advance_eq_flatMap, resolveSteps]

/-- **The values at the matching locations** are those that are resolved, in their order. -/
theorem map_snd_reach (steps : List Step) (doc : Document) :
    (reach steps doc).map Prod.snd = resolveSteps steps doc := by
  induction steps generalizing doc with
  | nil => rfl
  | cons step rest ih =>
    have values : ∀ branch : Move × Document,
        ((reach rest branch.2).map fun found => (branch.1 :: found.1, found.2)).map Prod.snd =
          resolveSteps rest branch.2 := by
      intro branch
      rw [List.map_map, ← ih]
      rfl
    rw [reach, List.map_flatMap, resolveSteps_cons, ← map_snd_branches, List.flatMap_map]
    exact List.flatMap_congr fun branch _ => values branch

/-- Keys alone lead to one value at most. -/
theorem length_resolveSteps_le {steps : List Step} (keys : steps.any Step.isAggregate = false)
    (doc : Document) : (resolveSteps steps doc).length ≤ 1 := by
  induction steps generalizing doc with
  | nil => exact Nat.le_refl 1
  | cons step rest ih =>
    rw [List.any_cons, Bool.or_eq_false_iff] at keys
    rw [resolveSteps_cons]
    cases step with
    | aggregate shape => cases keys.1
    | key name =>
      rw [Step.apply]
      cases doc.field? name with
      | none => exact Nat.zero_le 1
      | some next =>
        rw [Option.toList_some, List.flatMap_singleton]
        exact ih keys.2 next

/-! ### Sequences that are built by hand -/

theorem follow_nil (entries : List Entry) : follow entries [] = .ok [] := by
  cases entries <;> rfl

/-- Steps are followed as they are resolved, and with what comes after them it goes on from
their values; the walk that ends early because no candidate is left does not matter. -/
theorem follow_append (steps : List Step) (entries : List Entry) (docs : List Document) :
    follow (steps.map .step ++ entries) docs = follow entries (advance steps docs) := by
  induction steps generalizing docs with
  | nil => rfl
  | cons step rest ih =>
    cases docs with
    | nil => rw [follow_nil, advance_nil, follow_nil]
    | cons doc more => exact ih _

theorem follow_steps (steps : List Step) (doc : Document) :
    follow (steps.map .step) [doc] = .ok (resolveSteps steps doc) := by
  have followed := follow_append steps [] [doc]
  rwa [List.append_nil] at followed

/-- **A value that is no step** is an error exactly if the steps before it lead somewhere. -/
theorem follow_other_eq_error_iff {steps : List Step} {value stuck doc : Document}
    {entries : List Entry} :
    follow (steps.map .step ++ .other value :: entries) [doc] = .error stuck ↔
      stuck = value ∧ resolveSteps steps doc ≠ [] := by
  rw [follow_append, ← resolveSteps]
  cases resolveSteps steps doc with
  | nil => simp [follow]
  | cons next more => simp [follow, eq_comm]

/-! ### The statement -/

/-- **Resolving, by locations.** The values are those at the locations that the steps match,
each location once, in the lexicographic order of the indices; whether the steps are those of a
query or of a sequence built by hand. Steps after steps lead to the values of the later ones from
each value of the earlier, in order, and a query without an aggregate leads to one value at most.
A value that is no step, with steps alone before it, is an error exactly if those lead somewhere,
whatever comes after it. -/
theorem resolve_locations (raw : String) (steps : List Step) (doc : Document) :
    (∃ found : List (Location × Document),
      resolve ⟨raw, steps⟩ doc = found.map Prod.snd ∧
        follow (steps.map .step) [doc] = .ok (found.map Prod.snd) ∧
        (∀ location value, (location, value) ∈ found ↔ Leads steps doc location value) ∧
        found.Pairwise fun first next => first.1.indices < next.1.indices) ∧
    (∀ others, resolveSteps (steps ++ others) doc =
      (resolveSteps steps doc).flatMap (resolveSteps others)) ∧
    (hasAggregate ⟨raw, steps⟩ = false → (resolve ⟨raw, steps⟩ doc).length ≤ 1) ∧
    ∀ value entries stuck,
      follow (steps.map .step ++ .other value :: entries) [doc] = .error stuck ↔
        stuck = value ∧ resolveSteps steps doc ≠ [] := by
  refine ⟨⟨reach steps doc, ?_, ?_, ?_, ?_⟩, ?_, ?_, ?_⟩
  · exact (map_snd_reach steps doc).symm
  · rw [follow_steps, map_snd_reach]
  · intro location value
    exact mem_reach_iff
  · exact pairwise_indices_reach steps doc
  · exact fun others => resolveSteps_append steps others doc
  · intro keys
    exact length_resolveSteps_le keys doc
  · intro value entries stuck
    exact follow_other_eq_error_iff

/-- A query for the labels of a document, which are one value. -/
theorem resolve_locations_labels :
    let labels : Document := .array [.object [("name", .string "x")], .object [("other", .null)]]
    let query : Query := ⟨"\"labels\"", [.key "labels"]⟩
    query.hasAggregate = false ∧ (query.resolve (.object [("labels", labels)])).length ≤ 1 :=
  ⟨rfl, (resolve_locations "\"labels\"" [.key "labels"] _).2.2.1 rfl⟩

end Query

end DocumentFilter
