/-!
# A place in a YAML text

The reader of a YAML text goes through its characters with a cursor, which knows the line
and the column it is at. Lines end at a line feed, a carriage return, U+0085, U+2028 or
U+2029; a byte order mark takes up no column.

* `DocumentFilter.Yaml.Cursor.next`: goes on by a character;
* `DocumentFilter.Yaml.Cursor.take`: goes on while a condition holds;
* `DocumentFilter.Yaml.Cursor.lineBreak?`: the end of a line.
-/

namespace DocumentFilter.Yaml

/-- A character that ends a line. -/
def isBreak (c : Char) : Bool :=
  c = '\n' || c = '\r' || c = '\u0085' || c = '\u2028' || c = '\u2029'

/-- A character other than those that end a line. -/
def isInline (c : Char) : Bool := !isBreak c

/-- A space or a tab. -/
def isBlank (c : Char) : Bool :=
  c = ' ' || c = '\t'

/-- The end of a word: of the text, a blank or the end of a line. -/
def endsWord : Option Char → Bool
  | none => true
  | some c => isBlank c || isBreak c

/-- The end of a word that no tab makes. -/
def endsField : Option Char → Bool
  | none => true
  | some c => c = ' ' || isBreak c

/-- The end of a line or of the text. -/
def endsLine : Option Char → Bool
  | none => true
  | some c => isBreak c

/-- The characters to come and the place of the first of them. -/
structure Cursor where
  rest : List Char
  index : Nat
  line : Nat
  column : Nat

namespace Cursor

/-- The start of a text. -/
def start (cs : List Char) : Cursor := ⟨cs, 0, 0, 0⟩

/-- The next character. -/
def peek (c : Cursor) : Option Char := c.rest.head?

/-- The character that comes `n` places after the next one. -/
def peekAt (n : Nat) (c : Cursor) : Option Char := c.rest[n]?

/-- The next character is the given one. -/
def sees (x : Char) (c : Cursor) : Bool := c.peek = some x

/-- The next character is there and meets the condition. -/
def meets (p : Char → Bool) (c : Cursor) : Bool := c.peek.any p

/-- Goes on by a character. -/
def next : Cursor → Cursor
  | ⟨[], index, line, column⟩ => ⟨[], index, line, column⟩
  | ⟨x :: rest, index, line, column⟩ =>
    if isBreak x then ⟨rest, index + 1, line + 1, 0⟩
    else ⟨rest, index + 1, line, if x = '\uFEFF' then column else column + 1⟩

/-- Goes on by some characters. -/
def skip : Nat → Cursor → Cursor
  | 0, c => c
  | n + 1, c => skip n c.next

/-- The characters up to the first that does not meet the condition, and what is left. -/
def take (p : Char → Bool) (c : Cursor) : List Char × Cursor :=
  let word := c.rest.takeWhile p
  (word, c.skip word.length)

/-- Goes on behind the characters that meet the condition. -/
def drop (p : Char → Bool) (c : Cursor) : Cursor :=
  (c.take p).2

/-- Goes on behind the spaces that come next. -/
def dropSpaces (c : Cursor) : Cursor :=
  c.drop (· = ' ')

/-- Goes on behind a comment, up to the end of the line. -/
def dropComment (c : Cursor) : Cursor :=
  if c.sees '#' then c.drop isInline else c

/-- The end of a line: what it stands for in a text, and what is left. All ends but two
stand for a line feed. -/
def lineBreak? (c : Cursor) : Option (Char × Cursor) :=
  match c.peek with
  | some x =>
    if x = '\u2028' ∨ x = '\u2029' then some (x, c.next)
    else if isBreak x then some ('\n', c.next)
    else none
  | none => none

/-- A line that starts or ends a document, given the three characters it begins with. -/
def seesMarker (marker : List Char) (c : Cursor) : Bool :=
  marker.isPrefixOf c.rest && endsWord (c.peekAt 3)

/-- A line that starts or ends a document. -/
def seesSeparator (c : Cursor) : Bool :=
  c.seesMarker ['-', '-', '-'] || c.seesMarker ['.', '.', '.']

end Cursor

end DocumentFilter.Yaml
