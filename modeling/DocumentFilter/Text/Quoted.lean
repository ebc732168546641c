import DocumentFilter.Text.Printable

/-!
# Quoted text in messages

A message shows a text between quotes: single quotes, or double quotes when the text has
a single quote in it and no double quote. Backslashes and the chosen quote are escaped,
and so is every character that is not printable, by its code point in hexadecimal.

* `DocumentFilter.Text.quoted`: the quoted form of a text;
* `DocumentFilter.Text.quoteFor`: the quote it is put in.
-/

namespace DocumentFilter.Text

/-- The last `width` hexadecimal digits of a number. -/
def hex : (width n : Nat) → List Char
  | 0, _ => []
  | width + 1, n => hex width (n / 16) ++ [(Nat.digitChar (n % 16))]

/-- The quote that needs the fewest escapes: a single one unless only single ones occur. -/
def quoteFor (cs : List Char) : Char :=
  if '\'' ∈ cs ∧ '"' ∉ cs then '"' else '\''

/-- How a character is shown between the given quotes. -/
def quotedChar (quote c : Char) : List Char :=
  if c = quote ∨ c = '\\' then ['\\', c]
  else if c = '\t' then ['\\', 't']
  else if c = '\n' then ['\\', 'n']
  else if c = '\r' then ['\\', 'r']
  else if isPrintable c then [c]
  else if c.toNat < 0x100 then '\\' :: 'x' :: hex 2 c.toNat
  else if c.toNat < 0x10000 then '\\' :: 'u' :: hex 4 c.toNat
  else '\\' :: 'U' :: hex 8 c.toNat

/-- A text as a message shows it. -/
def quotedChars (cs : List Char) : List Char :=
  let quote := quoteFor cs
  quote :: cs.flatMap (quotedChar quote) ++ [quote]

/-- A text as a message shows it. -/
def quoted (s : String) : String :=
  String.ofList (quotedChars s.toList)

/-- Several texts as a message shows them, in brackets. -/
def quotedList (texts : List String) : String :=
  "[" ++ ", ".intercalate (texts.map quoted) ++ "]"

end DocumentFilter.Text
