import DocumentFilter.Text.Blank

/-!
# Operations

The five operations between the values that a query leads to and the values of a filter.
An operation is given by its symbol, by its name or by an alias, in letters of either
case and with blanks around it.

* `DocumentFilter.Operation.ofText?`: the operation that a text names.
-/

namespace DocumentFilter

/-- An operation of a filter. -/
inductive Operation
  | equal
  | notEqual
  | contains
  | greater
  | lower
deriving DecidableEq

namespace Operation

/-- The operations. -/
def all : List Operation := [.equal, .notEqual, .contains, .greater, .lower]

/-- The symbol of an operation. -/
def symbol : Operation → String
  | .equal => "="
  | .notEqual => "!="
  | .contains => "~"
  | .greater => ">"
  | .lower => "<"

/-- The name of an operation. -/
def name : Operation → String
  | .equal => "EQUAL"
  | .notEqual => "NOT_EQUAL"
  | .contains => "CONTAINS"
  | .greater => "GREATER_THAN"
  | .lower => "LOWER_THAN"

/-- A letter from `A` to `Z` in lower case. -/
def lowerChar (c : Char) : Char :=
  if 'A' ≤ c ∧ c ≤ 'Z' then Char.ofNat (c.toNat + 32) else c

/-- A text in lower case. Letters beyond `A` to `Z` stay as they are, for none of them
occurs in a name. -/
def lowerCase (s : String) : String :=
  String.ofList (s.toList.map lowerChar)

/-- The other words for operations. -/
def alias? : String → Option Operation
  | "==" => some .equal
  | "eq" => some .equal
  | "ne" => some .notEqual
  | "gt" => some .greater
  | "lt" => some .lower
  | _ => none

/-- **The operation that a text names**, if any. -/
def ofText? (text : String) : Option Operation :=
  let word := lowerCase (Text.trim text)
  (all.find? fun operation => word = operation.symbol || word = lowerCase operation.name).or
    (alias? word)

/-- The words for what names no operation, as it is displayed. -/
def unknown (display : String) : String :=
  "unknown operation: " ++ display

end Operation

end DocumentFilter
