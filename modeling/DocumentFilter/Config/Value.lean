import DocumentFilter.Document.Text
import DocumentFilter.Number.Reader
import DocumentFilter.Time.Iso

/-!
# Configuration values

What a configuration file says once it is decoded: a document, which may also hold days
and timestamps and whose mappings may have keys of any kind. A mapping keeps its entries in
the order in which they were written; a key that is written twice keeps its first place and
takes its last value.

* `DocumentFilter.Value.ofDocument`: a document as a configuration value;
* `DocumentFilter.Value.setEntry`: writes an entry of a mapping;
* `DocumentFilter.Value.display`: a value as messages show it;
* `DocumentFilter.Value.isWritable`: the values that they can show.
-/

namespace DocumentFilter

/-- A decoded configuration value. -/
inductive Value
  | null
  | bool (b : Bool)
  | number (n : Number)
  | string (s : String)
  | date (day : Day)
  | timestamp (t : Timestamp)
  | list (items : List Value)
  | map (entries : List (Value × Value))

namespace Value

mutual

/-- A document as a configuration value. -/
def ofDocument : Document → Value
  | .null => .null
  | .bool b => .bool b
  | .number n => .number n
  | .string s => .string s
  | .array items => .list (ofItems items)
  | .object fields => .map (ofFields fields)

/-- The items of an array. -/
def ofItems : List Document → List Value
  | [] => []
  | item :: rest => ofDocument item :: ofItems rest

/-- The fields of an object. -/
def ofFields : List (String × Document) → List (Value × Value)
  | [] => []
  | field :: rest => ofField field :: ofFields rest

/-- A field of an object. -/
def ofField : String × Document → Value × Value
  | (name, value) => (.string name, ofDocument value)

end

/-! ### Mappings -/

/-- The number that a key counts as: a truth value is zero or one. -/
def keyNumber? : Value → Option Number
  | .bool b => some (.int (if b then 1 else 0))
  | .number n => some n
  | _ => none

/-- Two keys of a mapping that are the same: by value among numbers and truth values, and
by instant among timestamps that have an offset. -/
def sameKey (a b : Value) : Bool :=
  match a, b with
  | .null, .null => true
  | .string s, .string t => s = t
  | .date d, .date e => d = e
  | .timestamp ⟨s, some m⟩, .timestamp ⟨t, some n⟩ => (s.micros : Int) - m = t.micros - n
  | .timestamp ⟨s, none⟩, .timestamp ⟨t, none⟩ => s = t
  | a, b =>
    match a.keyNumber?, b.keyNumber? with
    | some m, some n => m.same n
    | _, _ => false

/-- Gives a key a value: in its place where it is there, else at the end. -/
def setEntry (key value : Value) : List (Value × Value) → List (Value × Value)
  | [] => [(key, value)]
  | (other, old) :: rest =>
    if sameKey other key then (other, value) :: rest
    else (other, old) :: setEntry key value rest

/-- The value of the key that is the given text. -/
def entry? (name : String) : List (Value × Value) → Option Value
  | [] => none
  | (.string key, value) :: rest => if key = name then some value else entry? name rest
  | _ :: rest => entry? name rest

/-- A value that counts as nothing: a zero, a false or something empty. -/
def isEmpty : Value → Bool
  | .null => true
  | .bool b => !b
  | .number n => n.same (.int 0)
  | .string s => s.isEmpty
  | .date _ => false
  | .timestamp _ => false
  | .list items => items.isEmpty
  | .map entries => entries.isEmpty

/-! ### Display -/

/-- A call as messages show it. -/
def callText (name : String) (arguments : List String) : String :=
  name ++ "(" ++ String.intercalate ", " arguments ++ ")"

/-- A day as messages show it. -/
def dayText (day : Day) : String :=
  callText "datetime.date"
    [Decimal.natString day.date.year, Decimal.natString day.date.month,
      Decimal.natString day.date.day]

/-- An offset as messages show it. -/
def zoneText (offset : Int) : String :=
  if offset = 0 then "datetime.timezone.utc"
  else callText "datetime.timezone" [Iso.spanText offset]

/-- A timestamp as messages show it: seconds and microseconds are left out at the end if
they are zero. -/
def timestampText (t : Timestamp) : String :=
  let date := t.wall.date
  let clock := t.wall.clock
  let fraction :=
    if clock.micro ≠ 0 then [clock.second, clock.micro]
    else if clock.second ≠ 0 then [clock.second]
    else []
  callText "datetime.datetime"
    (([date.year, date.month, date.day, clock.hour, clock.minute] ++ fraction).map
        Decimal.natString ++
      (t.offset.map fun offset => "tzinfo=" ++ zoneText offset).toList)

mutual

/-- The characters of a value as messages show it. -/
def displayChars : Value → List Char
  | .null => "None".toList
  | .bool true => "True".toList
  | .bool false => "False".toList
  | .number n => n.textIn displayNotation
  | .string s => Text.quotedChars s.toList
  | .date day => (dayText day).toList
  | .timestamp t => (timestampText t).toList
  | .list [] => ['[', ']']
  | .list (item :: rest) => '[' :: displayChars item ++ itemDisplay rest
  | .map [] => ['\x7b', '\x7d']
  | .map (entry :: rest) => '\x7b' :: entryDisplay entry ++ entriesDisplay rest

/-- The items of a list after its first, and the closing bracket. -/
def itemDisplay : List Value → List Char
  | [] => [']']
  | item :: rest => ',' :: ' ' :: displayChars item ++ itemDisplay rest

/-- An entry of a mapping. -/
def entryDisplay : Value × Value → List Char
  | (key, value) => displayChars key ++ ':' :: ' ' :: displayChars value

/-- The entries of a mapping after its first, and the closing brace. -/
def entriesDisplay : List (Value × Value) → List Char
  | [] => ['\x7d']
  | entry :: rest => ',' :: ' ' :: entryDisplay entry ++ entriesDisplay rest

end

/-- **The display** of a value, as messages show it. -/
def display (value : Value) : String :=
  String.ofList value.displayChars

mutual

/-- A value that can be shown: it holds no integer of too many digits. -/
def isWritable : Value → Bool
  | .number n => n.isWritable
  | .list items => areWritable items
  | .map entries => haveWritable entries
  | _ => true

/-- The same of items. -/
def areWritable : List Value → Bool
  | [] => true
  | item :: rest => isWritable item && areWritable rest

/-- The same of the keys and the values of entries. -/
def haveWritable : List (Value × Value) → Bool
  | [] => true
  | (key, value) :: rest => isWritable key && isWritable value && haveWritable rest

end

end Value

end DocumentFilter
