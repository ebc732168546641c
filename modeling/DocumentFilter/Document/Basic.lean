import DocumentFilter.Number.Basic

/-!
# Documents

A document is a decoded JSON value. Objects keep their fields in the order in which they
were written, with one field for a name: a name that is written twice keeps its first
place and takes its last value, which is what `DocumentFilter.Document.setField` does.

* `DocumentFilter.Document.kind`: the six kinds of documents;
* `DocumentFilter.Document.field?`: the field of an object;
* `DocumentFilter.Document.leaves`: what an array unfolds to.
-/

namespace DocumentFilter

/-- A decoded JSON value. -/
inductive Document
  | null
  | bool (b : Bool)
  | number (n : Number)
  | string (s : String)
  | array (items : List Document)
  | object (fields : List (String × Document))

/-- The kinds of documents. -/
inductive Kind
  | null
  | bool
  | number
  | string
  | array
  | object
deriving DecidableEq

/-- The word for a kind. -/
def Kind.name : Kind → String
  | .null => "null"
  | .bool => "bool"
  | .number => "number"
  | .string => "string"
  | .array => "array"
  | .object => "object"

/-- The kinds of documents that hold other documents. -/
def Kind.isCollection : Kind → Bool
  | .array | .object => true
  | _ => false

namespace Document

/-- The kind of a document. -/
def kind : Document → Kind
  | .null => .null
  | .bool _ => .bool
  | .number _ => .number
  | .string _ => .string
  | .array _ => .array
  | .object _ => .object

/-- An object or an array. -/
def isCollection (doc : Document) : Bool :=
  doc.kind.isCollection

/-- The value of the field with the given name. -/
def lookup (name : String) : List (String × Document) → Option Document
  | [] => none
  | (key, value) :: rest => if key = name then some value else lookup name rest

/-- Gives a field a value: in its place where there is one, else at the end. -/
def setField (name : String) (value : Document) : List (String × Document) →
    List (String × Document)
  | [] => [(name, value)]
  | (key, old) :: rest =>
    if key = name then (key, value) :: rest else (key, old) :: setField name value rest

/-- The field of an object; no other document has fields. -/
def field? (doc : Document) (name : String) : Option Document :=
  match doc with
  | .object fields => lookup name fields
  | _ => none

/-- A document that has a field of the given name. -/
def hasField (doc : Document) (name : String) : Bool :=
  (doc.field? name).isSome

mutual

/-- The documents that are reached by unfolding arrays nested to any depth: a document
that is no array is its own only leaf. -/
def leaves : Document → List Document
  | .array items => leavesOfItems items
  | doc => [doc]

/-- The leaves of several documents, in their order. -/
def leavesOfItems : List Document → List Document
  | [] => []
  | item :: rest => leaves item ++ leavesOfItems rest

end

end Document

end DocumentFilter
