import DocumentFilter.Trace

/-!
# Outcomes of computations that leave notes

The outcome of a computation does not depend on what it notes, so it can be computed by the
rules of `Except` alone. These are the rules, as simplification lemmas: they push
`DocumentFilter.Traced.outcome` inwards until nothing that makes notes is left.

Where the notes matter too, a computation is taken apart at its first step, by how that one
ends (`DocumentFilter.Traced.bind_of_ok`, `DocumentFilter.Traced.bind_of_error`).
-/

namespace DocumentFilter

namespace Traced

variable {ν ε α β : Type}

@[simp] theorem outcome_pure (a : α) : (pure a : Traced ν ε α).outcome = .ok a := rfl

@[simp] theorem outcome_note (n : ν) : (note n : Traced ν ε Unit).outcome = .ok () := rfl

@[simp] theorem outcome_lift (outcome : Except ε α) :
    (lift outcome : Traced ν ε α).outcome = outcome := rfl

@[simp] theorem outcome_bind (x : Traced ν ε α) (f : α → Traced ν ε β) :
    (x >>= f).outcome = x.outcome.bind fun a => (f a).outcome := by
  change (x.bind f).outcome = _
  rw [bind]
  cases x.outcome <;> rfl

/-- A computation that returns does so step by step. -/
theorem outcome_bind_eq_ok {x : Traced ν ε α} {f : α → Traced ν ε β} {b : β} :
    (x >>= f).outcome = .ok b ↔ ∃ a, x.outcome = .ok a ∧ (f a).outcome = .ok b := by
  rw [outcome_bind]
  cases x.outcome with
  | ok a => simp [Except.bind]
  | error e => simp [Except.bind]

/-- A computation fails at its first step or behind it. -/
theorem outcome_bind_eq_error {x : Traced ν ε α} {f : α → Traced ν ε β} {e : ε} :
    (x >>= f).outcome = .error e ↔
      x.outcome = .error e ∨ ∃ a, x.outcome = .ok a ∧ (f a).outcome = .error e := by
  rw [outcome_bind]
  cases x.outcome with
  | ok a => simp [Except.bind]
  | error e' => simp [Except.bind]

/-- Behind a result, what follows decides. -/
theorem outcome_bind_of_ok {x : Traced ν ε α} {a : α} (h : x.outcome = .ok a)
    (f : α → Traced ν ε β) : (x >>= f).outcome = (f a).outcome := by
  rw [outcome_bind, h]
  rfl

/-- Behind a failure, nothing does. -/
theorem outcome_bind_of_error {x : Traced ν ε α} {e : ε} (h : x.outcome = .error e)
    (f : α → Traced ν ε β) : (x >>= f).outcome = .error e := by
  rw [outcome_bind, h]
  rfl

/-- After a result, the notes of what follows come behind those before it. -/
theorem bind_of_ok {x : Traced ν ε α} {a : α} (h : x.outcome = .ok a) (f : α → Traced ν ε β) :
    x >>= f = ⟨x.notes ++ (f a).notes, (f a).outcome⟩ := by
  change x.bind f = _
  rw [bind, h]

/-- A failure is the end. -/
theorem bind_of_error {x : Traced ν ε α} {e : ε} (h : x.outcome = .error e)
    (f : α → Traced ν ε β) : x >>= f = ⟨x.notes, .error e⟩ := by
  change x.bind f = _
  rw [bind, h]

/-- An attempt always goes on. -/
theorem attempt_bind {δ : Type} (x : Traced ν ε α) (f : Except ε α → Traced ν δ β) :
    x.attempt >>= f = ⟨x.notes ++ (f x.outcome).notes, (f x.outcome).outcome⟩ := rfl

end Traced

/-- An outcome without notes is a result if each of its steps is. -/
theorem Except.bind_eq_ok {ε α β : Type} {x : Except ε α} {f : α → Except ε β} {b : β} :
    x >>= f = .ok b ↔ ∃ a, x = .ok a ∧ f a = .ok b := by
  cases x <;> simp [bind, Except.bind]

end DocumentFilter
