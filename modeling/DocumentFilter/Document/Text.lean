import DocumentFilter.Document.Basic
import DocumentFilter.Text.Quoted

/-!
# The two texts of a document

A document has a **JSON text**, which is how records are written out, and a **display**,
which is how messages show it. The JSON text separates with `", "` and `": "`, keeps the
order of the fields and escapes only quotes, backslashes and control characters. The
display quotes texts as messages do and spells the constants in words.

* `DocumentFilter.Document.text`: the JSON text;
* `DocumentFilter.Document.display`: the form in messages.
-/

namespace DocumentFilter

/-- Numbers in a JSON text: positional from `0.0001` to below `10 ^ 16`, exponents in at
least two digits. -/
def jsonNotation : FloatNotation where
  least := -4
  limit := 16
  exponentWidth := 2
  nan := "NaN"
  infinity := "Infinity"

/-- Numbers in a message: as in a JSON text, but for the values that have no digits. -/
def displayNotation : FloatNotation :=
  { jsonNotation with nan := "nan", infinity := "inf" }

namespace Document

/-! ### The JSON text -/

/-- How a character stands in a JSON string. -/
def jsonChar (c : Char) : List Char :=
  match c with
  | '"' => ['\\', '"']
  | '\\' => ['\\', '\\']
  | '\n' => ['\\', 'n']
  | '\r' => ['\\', 'r']
  | '\t' => ['\\', 't']
  | '\x08' => ['\\', 'b']
  | '\x0c' => ['\\', 'f']
  | c => if c.toNat < 0x20 then '\\' :: 'u' :: Text.hex 4 c.toNat else [c]

/-- A text as a JSON string. -/
def jsonString (s : String) : List Char :=
  '"' :: s.toList.flatMap jsonChar ++ ['"']

mutual

/-- The JSON text of a document. -/
def chars : Document → List Char
  | .null => ['n', 'u', 'l', 'l']
  | .bool true => ['t', 'r', 'u', 'e']
  | .bool false => ['f', 'a', 'l', 's', 'e']
  | .number n => n.textIn jsonNotation
  | .string s => jsonString s
  | .array [] => ['[', ']']
  | .array (item :: rest) => '[' :: chars item ++ itemChars rest
  | .object [] => ['\x7b', '\x7d']
  | .object (field :: rest) => '\x7b' :: fieldChars field ++ fieldsChars rest

/-- The items of an array after its first, and the closing bracket. -/
def itemChars : List Document → List Char
  | [] => [']']
  | item :: rest => ',' :: ' ' :: chars item ++ itemChars rest

/-- A field of an object. -/
def fieldChars : String × Document → List Char
  | (name, value) => jsonString name ++ ':' :: ' ' :: chars value

/-- The fields of an object after its first, and the closing brace. -/
def fieldsChars : List (String × Document) → List Char
  | [] => ['\x7d']
  | field :: rest => ',' :: ' ' :: fieldChars field ++ fieldsChars rest

end

/-- **The JSON text** of a document. -/
def text (doc : Document) : String :=
  String.ofList doc.chars

/-! ### The display -/

mutual

/-- The form of a document in messages. -/
def displayChars : Document → List Char
  | .null => "None".toList
  | .bool true => "True".toList
  | .bool false => "False".toList
  | .number n => n.textIn displayNotation
  | .string s => Text.quotedChars s.toList
  | .array [] => ['[', ']']
  | .array (item :: rest) => '[' :: displayChars item ++ itemDisplay rest
  | .object [] => ['\x7b', '\x7d']
  | .object (field :: rest) => '\x7b' :: fieldDisplay field ++ fieldsDisplay rest

/-- The items of an array after its first, and the closing bracket. -/
def itemDisplay : List Document → List Char
  | [] => [']']
  | item :: rest => ',' :: ' ' :: displayChars item ++ itemDisplay rest

/-- A field of an object. -/
def fieldDisplay : String × Document → List Char
  | (name, value) => Text.quotedChars name.toList ++ ':' :: ' ' :: displayChars value

/-- The fields of an object after its first, and the closing brace. -/
def fieldsDisplay : List (String × Document) → List Char
  | [] => ['\x7d']
  | field :: rest => ',' :: ' ' :: fieldDisplay field ++ fieldsDisplay rest

end

/-- **The display** of a document, as messages show it. -/
def display (doc : Document) : String :=
  String.ofList doc.displayChars

/-- Several documents as a message shows them, in brackets. -/
def displayList (docs : List Document) : String :=
  (Document.array docs).display

end Document

end DocumentFilter
