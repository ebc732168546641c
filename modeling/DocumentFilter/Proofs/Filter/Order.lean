import DocumentFilter.Proofs.Filter.Targets

/-!
# The order of values

Under `<`, `=` and `>` a value stands to a target as one scalar to another. There are two lines on
which scalars have a place: the numbers, with an infinity at each end, and the instants. On either
line exactly one of the three holds of any two places, and `<` is transitive. Between the lines and
beside them there is no order, and equality is that of texts.

What this rests on is that integers and binary64 numbers stand on one line, and that nothing is
rounded on the way there (`DocumentFilter.Number.place?`). Only the non-number has no place. It is
a value that a document can hold, but no text denotes it, so that targets always have their place.

* `DocumentFilter.OneOf`: exactly one of three;
* `DocumentFilter.Scalar.OneKind`: two numbers or two dates;
* `DocumentFilter.Scalar.oneOf`, `DocumentFilter.Scalar.Below.trans`: the order of scalars;
* `DocumentFilter.matchesValues_order`: **the order that filters decide**.
-/

namespace DocumentFilter

/-- **One of three**: it holds, and the other two do not. -/
inductive OneOf : Bool → Bool → Bool → Prop
  | first : OneOf true false false
  | second : OneOf false true false
  | third : OneOf false false true

/-! ### The two lines -/

/-- On a line, two places are the same or one of them comes first. -/
theorem oneOf_lt {α : Type} [LinearOrder α] (x y : α) : OneOf (x < y) (x = y) (y < x) := by
  rcases lt_trichotomy x y with less | rfl | less
  · rw [decide_eq_true less, decide_eq_false less.ne, decide_eq_false less.not_gt]
    exact .first
  · rw [decide_eq_false (lt_irrefl x), decide_eq_true rfl]
    exact .second
  · rw [decide_eq_false less.not_gt, decide_eq_false less.ne', decide_eq_true less]
    exact .third

namespace Number

/-- Two places are the same, or one of them is to the left of the other. -/
theorem Place.oneOf (p q : Place) : OneOf (p.below q) (p = q) (q.below p) := by
  cases p with
  | least =>
    cases q with
    | least => exact .second
    | rational s => exact .first
    | greatest => exact .first
  | greatest =>
    cases q with
    | least => exact .third
    | rational s => exact .third
    | greatest => exact .second
  | rational r =>
    cases q with
    | least => exact .third
    | greatest => exact .first
    | rational s => simpa [Place.below] using oneOf_lt r s

theorem Place.below_trans {p q r : Place} (first : p.below q = true) (next : q.below r = true) :
    p.below r = true := by
  -- a place between two others is an end of the line only if one of them is beyond it
  cases q with
  | least => cases p <;> cases first
  | greatest => cases next
  | rational q =>
    cases p with
    | greatest => cases first
    | least => cases r <;> first | rfl | cases next
    | rational p =>
      cases r with
      | least => cases next
      | greatest => rfl
      | rational r =>
        simp only [Place.below, decide_eq_true_eq] at first next ⊢
        exact first.trans next

/-- Only the non-number has no place. -/
theorem exists_place {n : Number} (h : n ≠ .float .nan) : ∃ p, n.place? = some p := by
  cases n with
  | int n => exact ⟨_, rfl⟩
  | float x =>
    cases x with
    | nan => exact absurd rfl h
    | infinite negative => cases negative <;> exact ⟨_, rfl⟩
    | finite negative magnitude => cases negative <;> exact ⟨_, rfl⟩

theorem oneOf {m n : Number} (left : m ≠ .float .nan) (right : n ≠ .float .nan) :
    OneOf (m.below n) (m.same n) (n.below m) := by
  obtain ⟨p, place⟩ := exists_place left
  obtain ⟨q, place'⟩ := exists_place right
  simp only [below, same, place, place']
  exact Place.oneOf p q

theorem below_trans {m n k : Number} (first : m.below n = true) (next : n.below k = true) :
    m.below k = true := by
  simp only [below] at first next ⊢
  cases left : m.place? with
  | none =>
    rw [left] at first
    cases first
  | some p =>
    cases middle : n.place? with
    | none =>
      rw [left, middle] at first
      cases first
    | some q =>
      cases right : k.place? with
      | none =>
        rw [middle, right] at next
        cases next
      | some r =>
        rw [left, middle] at first
        rw [middle, right] at next
        exact Place.below_trans first next

end Number

namespace Moment

/-- Two instants are the same, or one of them is before the other. -/
theorem oneOf (s t : Moment) : OneOf (s.before t) (s = t) (t.before s) := by
  obtain ⟨m, _⟩ := s
  obtain ⟨n, _⟩ := t
  simpa [before] using oneOf_lt m n

theorem before_trans {s t u : Moment} (first : s.before t = true) (next : t.before u = true) :
    s.before u = true := by
  simp only [before, decide_eq_true_eq] at first next ⊢
  exact first.trans next

end Moment

/-! ### Scalars -/

namespace Scalar

/-- **Scalars of one kind that is ordered**: two numbers, or two dates. -/
inductive OneKind (a b : Scalar) : Prop
  | numbers {m n : Number} (left : a.sense = .number m) (right : b.sense = .number n)
  | dates {s t : Moment} (left : a.sense = .date s) (right : b.sense = .date t)

instance (a b : Scalar) : Decidable (a.Below b) :=
  decidable_of_iff _ below?_eq_some_true_iff

/-- There is an order between scalars of one kind, and between no others. -/
theorem below?_eq_none_iff {a b : Scalar} : a.below? b = none ↔ ¬a.OneKind b := by
  constructor
  · rintro none (⟨left, right⟩ | ⟨left, right⟩)
    · rw [below?, left, right] at none
      cases none
    · rw [below?, left, right] at none
      cases none
  · intro apart
    unfold below?
    split
    · rename_i left right
      exact absurd (.numbers left right) apart
    · rename_i left right
      exact absurd (.dates left right) apart
    · rfl

theorem OneKind.symm {a b : Scalar} (kind : a.OneKind b) : b.OneKind a := by
  cases kind with
  | numbers left right => exact .numbers right left
  | dates left right => exact .dates right left

theorem Below.oneKind {a b : Scalar} (below : a.Below b) : a.OneKind b := by
  cases below with
  | numbers left right => exact .numbers left right
  | dates left right => exact .dates left right

/-- Where there is no order, texts decide about equality. -/
theorem same_of_not_oneKind {a b : Scalar} (apart : ¬a.OneKind b) :
    a.same b = decide (a.text = b.text) := by
  unfold same
  split
  · rename_i left right
    exact absurd (.numbers left right) apart
  · rename_i left right
    exact absurd (.dates left right) apart
  · rfl

/-- **Two scalars of one kind** are equal, or one of them is below the other. -/
theorem oneOf {a b : Scalar} (kind : a.OneKind b) (left : a.sense ≠ .number (.float .nan))
    (right : b.sense ≠ .number (.float .nan)) :
    OneOf (decide (a.Below b)) (a.same b) (decide (b.Below a)) := by
  have order : ∀ c d : Scalar, decide (c.Below d) = (c.below? d == some true) := by
    intro c d
    rw [Bool.eq_iff_iff, decide_eq_true_iff, ← below?_eq_some_true_iff, beq_iff_eq]
  rw [order, order]
  cases kind with
  | @numbers m n number number' =>
    rw [number] at left
    rw [number'] at right
    have one := Number.oneOf (mt (congrArg _) left) (mt (congrArg _) right)
    simpa [below?, same, number, number'] using one
  | @dates s t date date' => simpa [below?, same, date, date'] using Moment.oneOf s t

/-- **The order is transitive.** A scalar between two others is of the kind of both. -/
theorem Below.trans {a b c : Scalar} (first : a.Below b) (next : b.Below c) : a.Below c := by
  cases first with
  | numbers left middle below =>
    cases next with
    | numbers middle' right below' =>
      rw [middle, Sense.number.injEq] at middle'
      subst middle'
      exact .numbers left right (Number.below_trans below below')
    | dates middle' =>
      rw [middle] at middle'
      cases middle'
  | dates left middle before =>
    cases next with
    | numbers middle' =>
      rw [middle] at middle'
      cases middle'
    | dates middle' right before' =>
      rw [middle, Sense.date.injEq] at middle'
      subst middle'
      exact .dates left right (Moment.before_trans before before')

/-- What a text denotes is a number with a place, if it is a number. -/
theorem sense_ofText_ne (t : String) : (ofText t).sense ≠ .number (.float .nan) := by
  intro nan
  rcases ofText_cases t with ⟨n, r, read, place⟩ | ⟨moment, read⟩ | read
  · rw [read] at nan
    cases nan
    cases place
  · rw [read] at nan
    cases nan
  · rw [read] at nan
    cases nan

/-- The only document whose scalar is the non-number is the non-number. -/
theorem sense_ofDocument_ne {doc : Document} {a : Scalar} (scalar : ofDocument doc = .ok a)
    (placed : doc ≠ .number (.float .nan)) : a.sense ≠ .number (.float .nan) := by
  cases doc with
  | string s =>
    cases scalar
    exact sense_ofText_ne s
  | number n =>
    cases scalar
    intro nan
    cases nan
    exact placed rfl
  | array items => cases scalar
  | object fields => cases scalar
  | _ =>
    cases scalar
    exact Sense.noConfusion

end Scalar

/-! ### One value and one target -/

/-- **How one value stands to one target**: the verdict of matching the two. -/
def Document.standing (doc : Document) (operation : Operation) (target : String) :
    Except MatchError Bool :=
  (matchesValues false [doc] operation [target]).outcome

section Standing

/-- A verdict on one value is the condition that the operation sets to it. -/
theorem Document.standing_eq {doc : Document} {t : String} {operation : Operation} {holds : Bool}
    (condition : operation.Holds [doc] [t] ↔ holds = true) :
    doc.standing operation t = .ok holds := by
  rw [standing, outcome_matchesValues, Except.ok.injEq, Bool.eq_iff_iff,
    matched_verdict_iff_holds, condition]

variable {doc : Document} {a : Scalar} (scalar : Scalar.ofDocument doc = .ok a) (t : String)
include scalar

theorem Document.standing_equal : doc.standing .equal t = .ok (a.same (.ofText t)) := by
  have plain := Scalar.isCollection_of_ofDocument scalar
  refine standing_eq ?_
  simp [Operation.Holds, leaves_scalar plain, isObject_of_scalar plain, equals, scalar]

theorem Document.standing_lower : doc.standing .lower t = .ok (decide (a.Below (.ofText t))) := by
  have plain := Scalar.isCollection_of_ofDocument scalar
  refine standing_eq ?_
  simp [Operation.Holds, leaves_scalar plain, isObject_of_scalar plain, FallsBelow, scalar]

theorem Document.standing_greater :
    doc.standing .greater t = .ok (decide ((Scalar.ofText t).Below a)) := by
  have plain := Scalar.isCollection_of_ofDocument scalar
  refine standing_eq ?_
  simp [Operation.Holds, leaves_scalar plain, isObject_of_scalar plain, Exceeds, scalar]

end Standing

/-- **The order that filters decide.** Of a value and a target of one ordered kind exactly one of
`<`, `=` and `>` holds, unless the value is the non-number; where the kinds differ or are not
ordered, neither `<` nor `>` does, and `=` compares the texts. Among texts `<` and `>` are one
relation read from its two sides, which is transitive and does not tell equal texts apart. -/
theorem matchesValues_order :
    (∀ doc : Document, doc.isCollection = false →
      ∃ a, Scalar.ofDocument doc = .ok a ∧ ∀ t,
        (doc ≠ .number (.float .nan) → a.OneKind (.ofText t) →
          ∃ lower equal greater, OneOf lower equal greater ∧ doc.standing .lower t = .ok lower ∧
            doc.standing .equal t = .ok equal ∧ doc.standing .greater t = .ok greater) ∧
        (¬a.OneKind (.ofText t) →
          doc.standing .lower t = .ok false ∧ doc.standing .greater t = .ok false ∧
            doc.standing .equal t = .ok (a.text = t))) ∧
    ∀ s t u : String,
      (Document.string s).standing .lower t = (Document.string t).standing .greater s ∧
      ((Document.string s).standing .lower t = .ok true →
        (Document.string t).standing .lower u = .ok true →
          (Document.string s).standing .lower u = .ok true) ∧
      ((Document.string s).standing .equal t = .ok true →
        ∀ operation ∈ [Operation.lower, Operation.greater],
          (Document.string s).standing operation u = (Document.string t).standing operation u ∧
            (Document.string u).standing operation s =
              (Document.string u).standing operation t) := by
  have text : ∀ s, Scalar.ofDocument (.string s) = .ok (.ofText s) := fun _ => rfl
  constructor
  · intro doc plain
    obtain ⟨a, scalar⟩ := Scalar.exists_ofDocument plain
    refine ⟨a, scalar, fun t => ⟨?_, ?_⟩⟩
    · intro placed kind
      exact ⟨_, _, _, Scalar.oneOf kind (Scalar.sense_ofDocument_ne scalar placed)
        (Scalar.sense_ofText_ne t), Document.standing_lower scalar t,
        Document.standing_equal scalar t, Document.standing_greater scalar t⟩
    · intro apart
      have lower : ¬a.Below (.ofText t) := fun below => apart below.oneKind
      have greater : ¬(Scalar.ofText t).Below a := fun below => apart below.oneKind.symm
      rw [Document.standing_lower scalar, Document.standing_greater scalar,
        Document.standing_equal scalar, decide_eq_false lower, decide_eq_false greater,
        Scalar.same_of_not_oneKind apart, Scalar.text_ofText]
      exact ⟨rfl, rfl, rfl⟩
  · intro s t u
    simp only [Document.standing_lower (text _), Document.standing_greater (text _),
      Document.standing_equal (text _), Except.ok.injEq, decide_eq_true_eq, true_and]
    refine ⟨Scalar.Below.trans, fun equal => ?_⟩
    have alike := Scalar.alike_of_key_eq (Scalar.same_ofText_iff.1 equal)
    have alike' := Scalar.alike_of_key_eq (Scalar.same_ofText_iff.1 equal).symm
    have left : ∀ c : Scalar, (Scalar.ofText s).Below c ↔ (Scalar.ofText t).Below c := fun c =>
      ⟨Scalar.Below.exchange_left alike, Scalar.Below.exchange_left alike'⟩
    have right : ∀ c : Scalar, c.Below (.ofText s) ↔ c.Below (.ofText t) := fun c =>
      ⟨Scalar.Below.exchange_right alike, Scalar.Below.exchange_right alike'⟩
    simp [Document.standing_lower (text _), Document.standing_greater (text _), left, right]

/-- An integer beside the binary64 number next to it, null beside the word for it, and days and
nights in two time zones. -/
theorem matchesValues_order_beside :
    let odd : Document := .number (.int 9007199254740993)
    let even : Number := .float (.finite false ⟨4503599627370496, 1, by decide⟩)
    let beside := (Document.number even).text
    let day := Document.string "2022-10-01"
    let night := Document.string "2022-10-02T00:00+01:00"
    (∃ lower equal greater, OneOf lower equal greater ∧ odd.standing .lower beside = .ok lower ∧
      odd.standing .equal beside = .ok equal ∧ odd.standing .greater beside = .ok greater) ∧
    Document.null.standing .lower "null" = .ok false ∧
    Document.null.standing .equal "null" = .ok true ∧
    day.standing .lower "2022-10-02T00:00+01:00" = .ok true ∧
    night.standing .lower "2022-10-02" = .ok true ∧ day.standing .lower "2022-10-02" = .ok true ∧
    night.standing .equal "2022-10-01T23:00Z" = .ok true ∧
    night.standing .lower "2022-10-02" =
      (Document.string "2022-10-01T23:00Z").standing .lower "2022-10-02" := by
  intro odd even beside day night
  have text : ∀ s, Scalar.ofDocument (.string s) = .ok (.ofText s) := fun _ => rfl
  have read : (Scalar.ofText beside).sense = .number even := by
    rw [Scalar.ofText, Number.ofText?_text (n := even) rfl]
  have apart : ¬Scalar.OneKind ⟨.plain, "null"⟩ (.ofText "null") := by
    rw [← Scalar.below?_eq_none_iff]
    rfl
  have first : day.standing .lower "2022-10-02T00:00+01:00" = .ok true := by
    rw [Document.standing_lower (text _)]
    exact congrArg Except.ok (by decide)
  have next : night.standing .lower "2022-10-02" = .ok true := by
    rw [Document.standing_lower (text _)]
    exact congrArg Except.ok (by decide)
  have equal : night.standing .equal "2022-10-01T23:00Z" = .ok true := by
    rw [Document.standing_equal (text _)]
    exact congrArg Except.ok (by decide +kernel)
  obtain ⟨values, texts⟩ := matchesValues_order
  obtain ⟨a, scalar, numbers⟩ := values odd rfl
  obtain rfl := Except.ok.inj scalar
  obtain ⟨a, scalar, words⟩ := values .null rfl
  obtain rfl := Except.ok.inj scalar
  obtain ⟨-, transitive, -⟩ := texts "2022-10-01" "2022-10-02T00:00+01:00" "2022-10-02"
  obtain ⟨-, -, exchange⟩ := texts "2022-10-02T00:00+01:00" "2022-10-01T23:00Z" "2022-10-02"
  have placed : odd ≠ .number (.float .nan) := by
    simp [odd]
  have one := (numbers beside).1 placed (.numbers rfl read)
  obtain ⟨lower, -, same⟩ := (words "null").2 apart
  exact ⟨one, lower, same, first, next, transitive first next, equal,
    (exchange equal .lower (by decide)).1⟩

end DocumentFilter
