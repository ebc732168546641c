import DocumentFilter.Proofs.Filter.Condition
import DocumentFilter.Proofs.Number.Reading

/-!
# Exchanging targets

Two texts can be equal as targets of a filter without being the same text: `"18"` and `"18.0"`
are the same number, `"2022-10-01"` and `"2022-10-01T00:00Z"` the same date. Equality is decided by
three rules – by values, by instants or by texts – and the last one is also there for two sides of
different kinds. So it is not plain that it is an equivalence, nor that a filter does not care which
of two equal targets it is given.

What makes both true is that a text decides for itself what it is taken for. Hence it has a
**key**, a value, an instant or a text, and texts are equal if their keys are. What the filter is
evaluated on need not be a text, but it could be one: a number is read back from its text,
and the numbers that are not, the infinite ones and the one that is none, equal exactly the
targets that spell them.

* `DocumentFilter.Scalar.key`: what decides whether a scalar equals a text;
* `DocumentFilter.Scalar.same_ofText_iff`, `DocumentFilter.Scalar.same_ofDocument`: equality with
  a text;
* `DocumentFilter.matchesValues_exchange`: equal targets may be exchanged.
-/

namespace DocumentFilter

/-- The number that a text denotes has a place among the rationals. -/
theorem Number.place?_of_ofText? {s : String} {n : Number} (h : ofText? s = some n) :
    ∃ r, n.place? = some (.rational r) := by
  rw [ofText?] at h
  rcases Option.or_eq_some_iff.1 h with whole | ⟨-, rounded⟩
  · simp only [integer?] at whole
    split at whole
    · split at whole
      · cases whole
      · cases whole
        exact ⟨_, rfl⟩
    · cases whole
  · rw [rounded?] at rounded
    split at rounded
    · rename_i x _
      split at rounded
      · rename_i finite
        cases rounded
        cases x with
        | nan => cases finite
        | infinite negative => cases finite
        | finite negative magnitude => cases negative <;> exact ⟨_, rfl⟩
      · cases rounded
    · cases rounded

namespace Scalar

/-! ### Texts -/

@[simp] theorem text_ofText (t : String) : (ofText t).text = t := by
  rw [ofText]
  split
  · rfl
  · split <;> rfl

/-- What a text can be taken for: a number among the rationals, a date or itself. -/
theorem ofText_cases (t : String) :
    (∃ n r, ofText t = ⟨.number n, t⟩ ∧ n.place? = some (.rational r)) ∨
      (∃ moment, ofText t = ⟨.date moment, t⟩) ∨ ofText t = ⟨.plain, t⟩ := by
  rw [ofText]
  split
  · rename_i n read
    obtain ⟨r, place⟩ := Number.place?_of_ofText? read
    exact .inl ⟨n, r, rfl, place⟩
  · split
    · exact .inr (.inl ⟨_, rfl⟩)
    · exact .inr (.inr rfl)

/-- What decides whether a scalar equals a text. -/
inductive Key
  | value (r : Rat)
  | instant (moment : Moment)
  | text (s : String)

/-- **The key of a scalar.** A number that is not among the rationals is left with its text. -/
def key (a : Scalar) : Key :=
  match a.sense with
  | .number n =>
    match n.place? with
    | some (.rational r) => .value r
    | _ => .text a.text
  | .date moment => .instant moment
  | .plain => .text a.text

/-- **Texts are equal if their keys are.** Two texts of different kinds are not the same text,
so the rule for them does not apply. -/
theorem same_ofText_iff {t u : String} :
    (ofText t).same (ofText u) = true ↔ (ofText t).key = (ofText u).key := by
  have apart : (ofText t).sense ≠ (ofText u).sense → t ≠ u := by
    rintro senses rfl
    exact senses rfl
  -- both sides are of one kind, or they are no equal texts by `apart` and have no equal keys
  rcases ofText_cases t with ⟨m, r, left, place⟩ | ⟨moment, left⟩ | left <;>
    rcases ofText_cases u with ⟨n, s, right, place'⟩ | ⟨moment', right⟩ | right <;>
    rw [left, right] at apart ⊢
  · simp [same, key, Number.same, place, place']
  · simpa [same, key, place] using apart
  · simpa [same, key, place] using apart
  · simpa [same, key, place'] using apart
  · simp [same, key]
  · simpa [same, key] using apart
  · simpa [same, key, place'] using apart
  · simpa [same, key] using apart
  · simp [same, key]

/-- Scalars with the same place in every order. -/
inductive Alike (a b : Scalar) : Prop
  | same (senses : a.sense = b.sense)
  | place {m n : Number} (left : a.sense = .number m) (right : b.sense = .number n)
      (places : m.place? = n.place?)

/-- Equal texts have the same place in every order. -/
theorem alike_of_key_eq {t u : String} (keys : (ofText t).key = (ofText u).key) :
    Alike (ofText t) (ofText u) := by
  rcases ofText_cases t with ⟨m, r, left, place⟩ | ⟨moment, left⟩ | left <;>
    rcases ofText_cases u with ⟨n, s, right, place'⟩ | ⟨moment', right⟩ | right <;>
    rw [left, right] at keys ⊢
  · obtain rfl : r = s := by simpa [key, place, place'] using keys
    exact .place rfl rfl (place.trans place'.symm)
  · simp [key, place] at keys
  · simp [key, place] at keys
  · simp [key, place'] at keys
  · obtain rfl : moment = moment' := by simpa [key] using keys
    exact .same rfl
  · simp [key] at keys
  · simp [key, place'] at keys
  · simp [key] at keys
  · exact .same rfl

theorem Below.exchange_left {a b c : Scalar} (alike : Alike a b) (below : a.Below c) :
    b.Below c := by
  cases alike with
  | same senses =>
    cases below with
    | numbers left right below => exact .numbers (senses ▸ left) right below
    | dates left right before => exact .dates (senses ▸ left) right before
  | @place m n left right places =>
    cases below with
    | @numbers _ k left' right' below =>
      rw [left, Sense.number.injEq] at left'
      subst left'
      refine .numbers right right' ?_
      rwa [Number.below, places] at below
    | dates left' right' before =>
      rw [left] at left'
      cases left'

theorem Below.exchange_right {a b c : Scalar} (alike : Alike a b) (below : c.Below a) :
    c.Below b := by
  cases alike with
  | same senses =>
    cases below with
    | numbers left right below => exact .numbers left (senses ▸ right) below
    | dates left right before => exact .dates left (senses ▸ right) before
  | @place m n left right places =>
    cases below with
    | @numbers k _ left' right' below =>
      rw [left, Sense.number.injEq] at right'
      subst right'
      refine .numbers left' right ?_
      rwa [Number.below, places] at below
    | dates left' right' before =>
      rw [left] at right'
      cases right'

/-- Equality of texts is an equivalence, since equality of keys is. -/
theorem equivalence_same : Equivalence fun t u : String => (ofText t).same (ofText u) = true where
  refl _ := same_ofText_iff.2 rfl
  symm h := same_ofText_iff.2 (same_ofText_iff.1 h).symm
  trans h h' := same_ofText_iff.2 ((same_ofText_iff.1 h).trans (same_ofText_iff.1 h'))

end Scalar

/-! ### Documents -/

/-- A document whose text can be read back: if it is an integer, it has not too many digits. -/
def Document.IsShort : Document → Prop
  | .number (.int n) => (Number.int n).IsLegible
  | _ => True

/-- A number that is not among the rationals equals a text if it is spelled by it. -/
theorem Scalar.same_spelled {n : Number} {s : String}
    (unplaced : ∀ r, n.place? ≠ some (.rational r)) (plain : ofText s = ⟨.plain, s⟩) (t : String) :
    same ⟨.number n, s⟩ (ofText t) = (ofText s).same (ofText t) := by
  rw [plain]
  rcases ofText_cases t with ⟨m, r, right, place⟩ | ⟨moment, right⟩ | right
  · have differ : s ≠ t := by
      rintro rfl
      rw [plain] at right
      cases right
    have unequal : n.same m = false := by
      rw [Number.same, place]
      cases other : n.place? with
      | none => rfl
      | some p =>
        refine decide_eq_false fun same => unplaced r ?_
        rw [other, same]
    rw [right]
    simp [same, unequal, differ]
  · rw [right]
    rfl
  · rw [right]
    rfl

/-- **A document equals the texts that its own text equals.** -/
theorem Scalar.same_ofDocument {doc : Document} (short : doc.IsShort) {a : Scalar}
    (scalar : ofDocument doc = .ok a) (t : String) :
    a.same (ofText t) = (ofText a.text).same (ofText t) := by
  cases doc with
  | null =>
    cases scalar
    rfl
  | bool b =>
    cases scalar
    cases b <;> rfl
  | string s =>
    cases scalar
    rw [text_ofText]
  | array items => cases scalar
  | object fields => cases scalar
  | number n =>
    cases scalar
    by_cases readable : n.IsLegible
    · have read : ofText (Document.number n).text = ⟨.number n, (Document.number n).text⟩ := by
        rw [ofText, Number.ofText?_text readable]
      rw [read]
    · -- what is left are the numbers that are not finite, with their names for texts
      cases n with
      | int n => exact absurd short readable
      | float x =>
        cases x with
        | nan => exact same_spelled (fun r h => by cases h) (by decide) t
        | infinite negative =>
          cases negative
          · exact same_spelled (fun r h => by cases h) (by decide) t
          · exact same_spelled (fun r h => by cases h) (by decide) t
        | finite negative magnitude => exact absurd rfl readable

section Exchange

variable {t u : String} (equal : (Scalar.ofText t).same (.ofText u) = true)
include equal

/-- A document equals both of two equal texts or neither. -/
theorem Document.equals_exchange {doc : Document} (short : doc.IsShort) :
    doc.equals t = doc.equals u := by
  rw [equals, equals]
  cases scalar : Scalar.ofDocument doc with
  | error kind => rfl
  | ok a =>
    have keys := Scalar.same_ofText_iff.1 equal
    rw [Bool.eq_iff_iff]
    simp only [Scalar.same_ofDocument short scalar, Scalar.same_ofText_iff, keys]

/-- A document is above both of two equal texts or above neither. -/
theorem Document.Exceeds.exchange {doc : Document} (h : doc.Exceeds t) : doc.Exceeds u := by
  obtain ⟨a, scalar, below⟩ := h
  have alike := Scalar.alike_of_key_eq (Scalar.same_ofText_iff.1 equal)
  exact ⟨a, scalar, below.exchange_left alike⟩

/-- A document is below both of two equal texts or below neither. -/
theorem Document.FallsBelow.exchange {doc : Document} (h : doc.FallsBelow t) :
    doc.FallsBelow u := by
  obtain ⟨a, scalar, below⟩ := h
  have alike := Scalar.alike_of_key_eq (Scalar.same_ofText_iff.1 equal)
  exact ⟨a, scalar, below.exchange_right alike⟩

/-- An array has an item that equals one of two equal texts if it has one that equals the
other. -/
theorem Document.Contains.exchange {items : List Document}
    (short : ∀ leaf ∈ (Document.array items).leaves, leaf.IsShort)
    (h : (Document.array items).Contains t) : (Document.array items).Contains u := by
  cases h with
  | @item _ item mem scalar found =>
    have leaf : item ∈ (Document.array items).leaves := by
      rw [leaves_array]
      refine List.mem_flatMap.2 ⟨item, mem, ?_⟩
      rw [leaves_scalar scalar]
      exact List.mem_singleton_self item
    exact .item mem scalar ((equals_exchange equal (short item leaf)).symm.trans found)

end Exchange

/-! ### Filters -/

/-- One of several targets is exchanged for one that does as well. -/
theorem exists_mem_exchange {P : String → Prop} {t u : String} (exchange : P t → P u)
    {before after : List String} (h : ∃ target ∈ before ++ t :: after, P target) :
    ∃ target ∈ before ++ u :: after, P target := by
  obtain ⟨target, mem, holds⟩ := h
  rcases List.mem_append.1 mem with mem | mem
  · exact ⟨target, List.mem_append_left _ mem, holds⟩
  · rcases List.mem_cons.1 mem with rfl | mem
    · exact ⟨u, List.mem_append_right _ (List.mem_cons_self ..), exchange holds⟩
    · exact ⟨target, List.mem_append_right _ (List.mem_cons_of_mem _ mem), holds⟩

section Operations

variable {t u : String} {values : List Document} {before after : List String}

/-- **The condition of an operation does not change** when a target is exchanged for an equal
one. For `~` this needs that there are only arrays, for a text is searched for the target as it
is written, and so are the names of an object's fields. -/
theorem Operation.Holds.exchange {operation : Operation}
    (equal : (Scalar.ofText t).same (.ofText u) = true)
    (short : ∀ value ∈ values, ∀ leaf ∈ value.leaves, leaf.IsShort)
    (arrays : operation = .contains → ∀ value ∈ values, ∃ items, value = .array items)
    (holds : operation.Holds values (before ++ t :: after)) :
    operation.Holds values (before ++ u :: after) := by
  cases operation with
  | equal =>
    obtain ⟨value, value_mem, leaf, leaf_mem, object, found⟩ := holds
    have same := Document.equals_exchange equal (short value value_mem leaf leaf_mem)
    exact ⟨value, value_mem, leaf, leaf_mem, object,
      exists_mem_exchange (fun found => same.symm.trans found) found⟩
  | notEqual =>
    obtain ⟨value, value_mem, leaf, leaf_mem, object, differs⟩ := holds
    have same := Document.equals_exchange equal (short value value_mem leaf leaf_mem)
    refine ⟨value, value_mem, leaf, leaf_mem, object, ?_⟩
    -- a target that the leaf equals would be there before the exchange as well
    by_contra found
    simp only [not_forall, exists_prop] at found
    obtain ⟨target, mem, equals⟩ :=
      exists_mem_exchange (P := fun target => leaf.equals target ≠ false)
        (fun found => by rwa [same]) found
    exact equals (differs target mem)
  | greater =>
    obtain ⟨value, value_mem, leaf, leaf_mem, object, found⟩ := holds
    exact ⟨value, value_mem, leaf, leaf_mem, object,
      exists_mem_exchange (Document.Exceeds.exchange equal) found⟩
  | lower =>
    obtain ⟨value, value_mem, leaf, leaf_mem, object, found⟩ := holds
    exact ⟨value, value_mem, leaf, leaf_mem, object,
      exists_mem_exchange (Document.FallsBelow.exchange equal) found⟩
  | contains =>
    obtain ⟨value, value_mem, found⟩ := holds
    obtain ⟨items, rfl⟩ := arrays rfl value value_mem
    exact ⟨_, value_mem, exists_mem_exchange
      (Document.Contains.exchange equal (short _ value_mem)) found⟩

end Operations

theorem outcome_matchesValues (values : List Document) (operation : Operation)
    (targets : List String) :
    (matchesValues false values operation targets).outcome =
      .ok (operation.verdict values targets).matched := by
  simp [matchesValues, evaluateNoting, evaluate_eq, Except.bind]

/-- The comparison of two texts is the equality of their scalars. -/
theorem equalTo_string_eq (t u : String) :
    equalTo u (.string t) = .ok ((Scalar.ofText t).same (.ofText u)) := rfl

/-- **Equality of targets.** Comparing texts for equality is an equivalence, and equal targets may
be exchanged: matching has the same verdict, under `=`, `!=`, `>` and `<` for all values and under
`~` for arrays. -/
theorem matchesValues_exchange :
    (Equivalence fun t u : String => equalTo u (.string t) = .ok true) ∧
    ∀ {t u : String}, equalTo u (.string t) = .ok true →
      ∀ (values : List Document) (before after : List String) (operation : Operation),
        (∀ value ∈ values, ∀ leaf ∈ value.leaves, leaf.IsShort) →
        (operation = .contains → ∀ value ∈ values, ∃ items, value = .array items) →
        (matchesValues false values operation (before ++ t :: after)).outcome =
          (matchesValues false values operation (before ++ u :: after)).outcome := by
  simp only [equalTo_string_eq, Except.ok.injEq]
  refine ⟨Scalar.equivalence_same, ?_⟩
  intro t u equal values before after operation short arrays
  rw [outcome_matchesValues, outcome_matchesValues, Except.ok.injEq, Bool.eq_iff_iff,
    matched_verdict_iff_holds, matched_verdict_iff_holds]
  exact ⟨Operation.Holds.exchange equal short arrays,
    Operation.Holds.exchange (Scalar.equivalence_same.symm equal) short arrays⟩

/-- Exchanging a date for the same date written otherwise, where a number is among the values. -/
theorem matchesValues_exchange_date :
    let values : List Document := [.array [.number (.int 18), .string "2022-10-01"]]
    equalTo "2022-10-01T00:00Z" (.string "2022-10-01") = .ok true ∧
    (∀ value ∈ values, ∀ leaf ∈ value.leaves, leaf.IsShort) ∧
    (matchesValues false values .contains ["x", "2022-10-01"]).outcome =
      (matchesValues false values .contains ["x", "2022-10-01T00:00Z"]).outcome := by
  intro values
  have equal : equalTo "2022-10-01T00:00Z" (.string "2022-10-01") = .ok true := by decide
  have two : (Decimal.digits 18).length ≤ 2 := Decimal.length_digits_le (by decide) (by decide)
  have legible : (Number.int 18).IsLegible := Nat.le_trans two (by decide)
  have leaves : (Document.array [.number (.int 18), .string "2022-10-01"]).leaves =
      [.number (.int 18), .string "2022-10-01"] := rfl
  have short : ∀ value ∈ values, ∀ leaf ∈ value.leaves, leaf.IsShort := by
    refine List.forall_mem_singleton.2 ?_
    rw [leaves]
    exact List.forall_mem_cons.2 ⟨legible, List.forall_mem_singleton.2 trivial⟩
  exact ⟨equal, short, matchesValues_exchange.2 equal values ["x"] [] .contains short
    fun _ => List.forall_mem_singleton.2 ⟨_, rfl⟩⟩

end DocumentFilter
