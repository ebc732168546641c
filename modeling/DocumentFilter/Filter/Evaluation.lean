import DocumentFilter.Filter.Basic
import DocumentFilter.Filter.Scalar

/-!
# Evaluating an operation

Whether one of several values stands in an operation to one of several target texts.

An array takes part through its items, at any depth, except that `~` asks for membership
in the array itself. An object takes part in `~` alone, which asks for the name of a
field. A value is `!=` the targets if it differs from all of them. Where an operation is
not defined for a value the comparison is noted as unsupported and counts as no match.

Values are looked at in order, each with the targets in order, up to the first match.

* `DocumentFilter.compare`: one value and one target;
* `DocumentFilter.evaluate`: several values and several targets;
* `DocumentFilter.Unsupported`: a comparison that is not defined.
-/

namespace DocumentFilter

/-- An operation that is not defined for a value and the targets it was to be compared
with. -/
structure Unsupported where
  operation : Operation
  value : Document
  targets : List String

/-- The words for an unsupported comparison. -/
def Unsupported.message (u : Unsupported) : String :=
  "operation " ++ Text.quoted u.operation.symbol ++ " is not defined for value " ++
    u.value.display ++ " against " ++ Text.quotedList u.targets

/-- What evaluation notes about a comparison. -/
inductive Comparison
  | matched (value : Document) (target : String) (operation : Operation)
  | unsupported (u : Unsupported)

/-- Whether there was a match, and the comparisons noted up to it. -/
structure Verdict where
  matched : Bool
  notes : List Comparison

/-- The comparison, if it is unsupported. -/
def Comparison.unsupported? : Comparison → Option Unsupported
  | .matched _ _ _ => none
  | .unsupported u => some u

namespace Verdict

/-- The unsupported comparisons. -/
def unsupported (verdict : Verdict) : List Unsupported :=
  verdict.notes.filterMap Comparison.unsupported?

/-- No match, and nothing to note. -/
def none : Verdict := ⟨false, []⟩

/-- No match, since a comparison is unsupported. -/
def refused (u : Unsupported) : Verdict := ⟨false, [.unsupported u]⟩

/-- The second verdict after the first, unless that is a match. -/
def orElse (first next : Except Kind Verdict) : Except Kind Verdict := do
  let v ← first
  if v.matched then return v
  else
    let w ← next
    return ⟨w.matched, v.notes ++ w.notes⟩

/-- **A strict verdict**: where nothing matched, the first unsupported comparison is an
error. -/
def strict (verdict : Verdict) : Except Unsupported Bool :=
  if verdict.matched then .ok true
  else
    match verdict.unsupported with
    | [] => .ok false
    | u :: _ => .error u

end Verdict

/-! ### One value and one target -/

/-- A document and a text with equal scalars. -/
def equalTo (target : String) (value : Document) : Except Kind Bool := do
  return (← Scalar.ofDocument value).same (.ofText target)

/-- One of several documents and a text with equal scalars; collections among them are
passed over. -/
def anyEqualTo (target : String) : List Document → Except Kind Bool
  | [] => .ok false
  | item :: rest =>
    if item.isCollection then anyEqualTo target rest
    else do if ← equalTo target item then return true else anyEqualTo target rest

/-- A text that occurs in another. -/
def isInfix (part : List Char) : List Char → Bool
  | [] => part.isEmpty
  | c :: rest => part.isPrefixOf (c :: rest) || isInfix part rest

/-- Whether a document has a text: as a part of it, as an item or as the name of a
field. Only texts, arrays and objects can be asked. -/
def containsText (target : String) : Document → Except Kind (Option Bool)
  | .string s => .ok (some (isInfix target.toList s.toList))
  | .array items => some <$> anyEqualTo target items
  | .object fields => .ok (some (Document.lookup target fields).isSome)
  | _ => .ok none

/-- **One comparison**; none where the operation is not defined. -/
def compare : Operation → Document → String → Except Kind (Option Bool)
  | .equal, value, target => some <$> equalTo target value
  | .notEqual, value, target => (fun same => some !same) <$> equalTo target value
  | .contains, value, target => containsText target value
  | .greater, value, target => do
    return (Scalar.ofText target).below? (← Scalar.ofDocument value)
  | .lower, value, target => do
    return (← Scalar.ofDocument value).below? (.ofText target)

/-! ### Several values and several targets -/

/-- A value and the targets in order. -/
def judgeTargets (operation : Operation) (value : Document) :
    List String → Except Kind Verdict
  | [] => .ok .none
  | target :: rest => do
    match ← compare operation value target with
    | some true => return ⟨true, [.matched value target operation]⟩
    | some false => judgeTargets operation value rest
    | none =>
      Verdict.orElse (.ok (.refused ⟨operation, value, [target]⟩))
        (judgeTargets operation value rest)

/-- A value that differs from all the targets. -/
def differs (value : Document) : List String → Except Kind Bool
  | [] => .ok true
  | target :: rest => do
    if ← equalTo target value then return false else differs value rest

/-- A value that is looked at as it is. -/
def judgeLeaf (operation : Operation) (value : Document) (targets : List String) :
    Except Kind Verdict :=
  match operation with
  | .notEqual => do return ⟨← differs value targets, []⟩
  | operation => judgeTargets operation value targets

mutual

/-- One value. -/
def judge (operation : Operation) (targets : List String) : Document → Except Kind Verdict
  | .array items =>
    if operation = .contains then judgeLeaf operation (.array items) targets
    else judgeItems operation targets items
  | .object fields =>
    if operation = .contains then judgeLeaf operation (.object fields) targets
    else .ok (.refused ⟨operation, .object fields, targets⟩)
  | value => judgeLeaf operation value targets

/-- Several values in order. -/
def judgeItems (operation : Operation) (targets : List String) :
    List Document → Except Kind Verdict
  | [] => .ok .none
  | item :: rest =>
    Verdict.orElse (judge operation targets item) (judgeItems operation targets rest)

end

/-- **Whether one of the values stands in the operation to one of the targets.** -/
def evaluate (values : List Document) (operation : Operation) (targets : List String) :
    Except Kind Verdict :=
  judgeItems operation targets values

end DocumentFilter
