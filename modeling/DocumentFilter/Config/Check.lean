import DocumentFilter.Config.Value

/-!
# Checked configuration

A configuration value is checked against what is expected of it. A check does not stop at
the first fault: it finds all of them, each with the location at which it lies.

* `DocumentFilter.Checked`: what was read, or the faults;
* `DocumentFilter.Checked.both`: two checks, with the faults of both;
* `DocumentFilter.Check.field`, `DocumentFilter.Check.list`: into mappings and lists.
-/

namespace DocumentFilter

/-- A part of a location: a key of a mapping or an index of a list. -/
inductive Part
  | key (name : String)
  | index (n : Nat)
deriving DecidableEq

/-- What is wrong at a location. -/
inductive FaultKind
  | missing
  | textExpected
  | listExpected
  | mappingExpected
  | tooShort
  | unknownOperation (display : String)
  | unwritable
  | integerExpected
  | integerMalformed
  | integerOversized
  | integerFractional
  | integerInfinite
  | wordUnknown
  | timestampExpected
  | timestampMalformed
  | timestampOutOfRange
deriving DecidableEq

/-- The code of a fault. -/
def FaultKind.code : FaultKind → String
  | .missing => "missing"
  | .textExpected => "string_type"
  | .listExpected => "list_type"
  | .mappingExpected => "model_type"
  | .tooShort => "too_short"
  | .unknownOperation _ => "value_error"
  | .unwritable => "value_error"
  | .integerExpected => "int_type"
  | .integerMalformed => "int_parsing"
  | .integerOversized => "int_parsing_size"
  | .integerFractional => "int_from_float"
  | .integerInfinite => "finite_number"
  | .wordUnknown => "enum"
  | .timestampExpected => "datetime_type"
  | .timestampMalformed => "datetime_from_date_parsing"
  | .timestampOutOfRange => "datetime_parsing"

/-- A fault and where it lies, from the outermost part inwards. -/
structure Fault where
  location : List Part
  kind : FaultKind
deriving DecidableEq

/-- What was read, or the faults that were found. -/
abbrev Checked := Except (List Fault)

namespace Checked

variable {α β γ : Type}

/-- A single fault here. -/
def fault (kind : FaultKind) : Checked α :=
  .error [⟨[], kind⟩]

/-- Places the faults of a check under a part of the location. -/
def under (part : Part) (x : Checked α) : Checked α :=
  x.mapError fun faults => faults.map fun f => { f with location := part :: f.location }

/-- **Two checks**: what both read, or the faults of the first and then of the second. -/
def both (x : Checked α) (y : Checked β) : Checked (α × β) :=
  match x, y with
  | .ok a, .ok b => .ok (a, b)
  | .ok _, .error faults => .error faults
  | .error faults, .ok _ => .error faults
  | .error faults, .error more => .error (faults ++ more)

/-- Checks every item of a list, from the index `n` on. -/
def each (check : α → Checked β) (n : Nat) : List α → Checked (List β)
  | [] => .ok []
  | item :: rest =>
    (both (under (.index n) (check item)) (each check (n + 1) rest)).map fun (b, bs) => b :: bs

end Checked

namespace Check

variable {α : Type}

/-- The entries of a mapping. -/
def mapping : Value → Checked (List (Value × Value))
  | .map entries => .ok entries
  | _ => Checked.fault .mappingExpected

/-- A text. -/
def text : Value → Checked String
  | .string s => .ok s
  | _ => Checked.fault .textExpected

/-- A list whose items are checked. -/
def list (check : Value → Checked α) : Value → Checked (List α)
  | .list items => Checked.each check 0 items
  | _ => Checked.fault .listExpected

/-- Null, or what is checked. -/
def nullable (check : Value → Checked α) : Value → Checked (Option α)
  | .null => .ok none
  | value => (check value).map some

/-- An entry that has to be there. -/
def field (name : String) (check : Value → Checked α) (entries : List (Value × Value)) :
    Checked α :=
  Checked.under (.key name) <|
    match Value.entry? name entries with
    | some value => check value
    | none => Checked.fault .missing

/-- An entry that has a default. -/
def fieldOr (default : α) (name : String) (check : Value → Checked α)
    (entries : List (Value × Value)) : Checked α :=
  Checked.under (.key name) <|
    match Value.entry? name entries with
    | some value => check value
    | none => .ok default

end Check

/-- The heading of a report on faults, for what is named by the title. -/
def faultHeading (title : String) (faults : List Fault) : String :=
  Decimal.natString faults.length ++
    (if faults.length = 1 then " validation error for " else " validation errors for ") ++ title

end DocumentFilter
