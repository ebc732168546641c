/-!
# Computations that leave notes

A computation of this library may fail, and on its way it leaves notes in order: the
comparisons that it made, the requests that it sent, the lines that it printed. What was
noted before a failure stays noted.

* `DocumentFilter.Traced`: notes and an outcome;
* `DocumentFilter.Traced.attempt`: goes on after a failure.
-/

namespace DocumentFilter

/-- The notes of a computation, and its result or why it failed. -/
structure Traced (ν ε α : Type) where
  notes : List ν
  outcome : Except ε α

namespace Traced

variable {ν μ ε δ α β : Type}

/-- A result without notes. -/
def ok (a : α) : Traced ν ε α := ⟨[], .ok a⟩

/-- A failure without notes. -/
def fail (e : ε) : Traced ν ε α := ⟨[], .error e⟩

/-- One note. -/
def note (n : ν) : Traced ν ε Unit := ⟨[n], .ok ()⟩

/-- An outcome without notes. -/
def lift (outcome : Except ε α) : Traced ν ε α := ⟨[], outcome⟩

/-- Goes on with the result, after the notes. -/
def bind (x : Traced ν ε α) (f : α → Traced ν ε β) : Traced ν ε β :=
  match x.outcome with
  | .ok a =>
    let y := f a
    ⟨x.notes ++ y.notes, y.outcome⟩
  | .error e => ⟨x.notes, .error e⟩

instance : Monad (Traced ν ε) where
  pure := ok
  bind := bind

/-- Rewrites every note. -/
def mapNotes (f : ν → μ) (x : Traced ν ε α) : Traced μ ε α :=
  ⟨x.notes.map f, x.outcome⟩

/-- Rewrites the failure. -/
def mapError (f : ε → δ) (x : Traced ν ε α) : Traced ν δ α :=
  ⟨x.notes, x.outcome.mapError f⟩

/-- Takes the failure for a result as well, so that what follows can go on after it. -/
def attempt (x : Traced ν ε α) : Traced ν δ (Except ε α) :=
  ⟨x.notes, .ok x.outcome⟩

end Traced

end DocumentFilter
