import DocumentFilter.Document.Basic
import DocumentFilter.Text.StandIns

/-!
# Reading a JSON text

A recursive-descent reader of JSON over a list of characters. Beyond the standard it takes
`NaN`, `Infinity` and `-Infinity` for numbers; a number with neither a fraction nor an
exponent is an integer, and every other one is rounded to binary64.

A text that is not JSON is refused for its first flaw, with the place of that flaw. The
reader counts places from the end, as the number of characters left, since that is what
it has at hand; `DocumentFilter.Json.read` turns the count into an offset, a line and a
column. An integer of more than 4300 digits is refused for its size alone. An escape may name
a half of a pair alone; a character stands in for it (`DocumentFilter.StandIns`).

* `DocumentFilter.Json.value`: one value from the front of a text;
* `DocumentFilter.Json.read`: the document that a whole text denotes.
-/

namespace DocumentFilter.Json

/-! ### What can be wrong with a text -/

/-- A flaw in a text that is not JSON. -/
inductive Flaw
  | valueExpected
  | nameExpected
  | colonExpected
  | commaExpected
  | extraData
  | unterminatedString
  | controlCharacter
  | badEscape
  | badUnicodeEscape
  | byteOrderMark
deriving DecidableEq

/-- The words for a flaw. -/
def Flaw.message : Flaw → String
  | .valueExpected => "Expecting value"
  | .nameExpected => "Expecting property name enclosed in double quotes"
  | .colonExpected => "Expecting ':' delimiter"
  | .commaExpected => "Expecting ',' delimiter"
  | .extraData => "Extra data"
  | .unterminatedString => "Unterminated string starting at"
  | .controlCharacter => "Invalid control character at"
  | .badEscape => "Invalid \\escape"
  | .badUnicodeEscape => "Invalid \\uXXXX escape"
  | .byteOrderMark => "Unexpected UTF-8 BOM (decode using utf-8-sig)"

/-- Why the reader stops: a flaw, with the number of characters left where it is, or an
integer of too many digits. -/
inductive Stop
  | flaw (flaw : Flaw) (left : Nat)
  | oversized (digits : Nat)

/-- What the reader gives: a result, or why it stops. Its steps give a result and the
characters after it. -/
abbrev Reading := Except Stop

/-- The greatest number of digits of an integer. -/
def integerDigits : Nat := 4300

/-! ### Blanks, strings and numbers -/

/-- The characters that may stand between the tokens of a JSON text. -/
def isSpace (c : Char) : Bool :=
  c == ' ' || c == '\t' || c == '\n' || c == '\r'

/-- A text without the space at its front. -/
def skip (cs : List Char) : List Char :=
  cs.dropWhile isSpace

/-- The character that a one-letter escape stands for. -/
def escape? : Char → Option Char
  | '"' => some '"'
  | '\\' => some '\\'
  | '/' => some '/'
  | 'b' => some '\x08'
  | 'f' => some '\x0c'
  | 'n' => some '\n'
  | 'r' => some '\r'
  | 't' => some '\t'
  | _ => none

/-- The number that four hexadecimal digits denote. -/
def hex4? (a b c d : Char) : Option Nat := do
  let a ← Text.hexDigit? a
  let b ← Text.hexDigit? b
  let c ← Text.hexDigit? c
  let d ← Text.hexDigit? d
  return ((a * 16 + b) * 16 + c) * 16 + d

/-- The first half of a pair of escapes. -/
def isHighHalf (n : Nat) : Bool := 0xD800 ≤ n && n ≤ 0xDBFF

/-- The second half of a pair of escapes. -/
def isLowHalf (n : Nat) : Bool := 0xDC00 ≤ n && n ≤ 0xDFFF

variable [StandIns]

/-- The character with the given code point, or the one that stands in for a half. -/
def scalar (n : Nat) : Char :=
  if Text.isHalf n then StandIns.char n else Char.ofNat n

/-- The character beyond U+FFFF that a pair of halves denotes. -/
def pair (high low : Nat) : Char :=
  Char.ofNat (0x10000 + (high - 0xD800) * 0x400 + (low - 0xDC00))

/-- What comes behind the four digits `\uXXXX` of the first half of a pair: the second
half, where there is one. Its four digits are read only if something follows them. -/
def secondHalf (high : Nat) : List Char → Reading (Char × List Char)
  | '\\' :: 'u' :: a :: b :: c :: d :: next :: rest =>
    match hex4? a b c d with
    | none => .error (.flaw .badUnicodeEscape (rest.length + 6))
    | some low =>
      if isLowHalf low then .ok (pair high low, next :: rest)
      else .ok (scalar high, '\\' :: 'u' :: a :: b :: c :: d :: next :: rest)
  | rest => .ok (scalar high, rest)

/-- The character that a `\uXXXX` escape or a pair of them denotes, from behind `\u`. -/
def unicodeEscape : List Char → Reading (Char × List Char)
  | a :: b :: c :: d :: next :: rest =>
    match hex4? a b c d with
    | none => .error (.flaw .badUnicodeEscape (rest.length + 6))
    | some n =>
      if isHighHalf n then secondHalf n (next :: rest) else .ok (scalar n, next :: rest)
  | rest => .error (.flaw .badUnicodeEscape (rest.length + 1))

theorem secondHalf_length {high : Nat} {cs rest : List Char} {c : Char}
    (h : secondHalf high cs = .ok (c, rest)) : rest.length ≤ cs.length := by
  unfold secondHalf at h
  split at h
  · split at h
    · cases h
    · split at h <;> simp only [Except.ok.injEq, Prod.mk.injEq] at h <;> simp [← h.2]
  · simp only [Except.ok.injEq, Prod.mk.injEq] at h
    simp [h.2]

/-- An escape takes up characters. -/
theorem unicodeEscape_length {cs rest : List Char} {c : Char}
    (h : unicodeEscape cs = .ok (c, rest)) : rest.length < cs.length := by
  unfold unicodeEscape at h
  split at h
  · split at h
    · cases h
    · split at h
      · have := secondHalf_length h
        simp only [List.length_cons] at this ⊢
        omega
      · simp only [Except.ok.injEq, Prod.mk.injEq] at h
        simp only [← h.2, List.length_cons]
        omega
  · cases h

/-- A string from behind its opening quote, at which `start` characters were left. The
characters that were read are kept in reverse. -/
def string (start : Nat) (read : List Char) : List Char → Reading (String × List Char)
  | [] => .error (.flaw .unterminatedString start)
  | '"' :: rest => .ok (String.ofList read.reverse, rest)
  | '\\' :: [] => .error (.flaw .unterminatedString start)
  | '\\' :: 'u' :: rest =>
    match _h : unicodeEscape rest with
    | .error stop => .error stop
    | .ok (c, rest) => string start (c :: read) rest
  | '\\' :: c :: rest =>
    match escape? c with
    | some d => string start (d :: read) rest
    | none => .error (.flaw .badEscape (rest.length + 2))
  | c :: rest =>
    if c.toNat < 0x20 then .error (.flaw .controlCharacter (rest.length + 1))
    else string start (c :: read) rest
termination_by cs => cs.length
decreasing_by
  · have := unicodeEscape_length _h
    simp only [List.length_cons]
    omega
  all_goals
    simp only [List.length_cons]
    omega

/-- One of the digits `0` to `9`. -/
def isDigit (c : Char) : Bool := '0' ≤ c && c ≤ '9'

/-- The number that a list of digits denotes. -/
def natOf (ds : List Char) : Nat :=
  ds.foldl (fun n d => 10 * n + (d.toNat - '0'.toNat)) 0

/-- The digits at the front of a text, and what comes after them. -/
def spanDigits (cs : List Char) : List Char × List Char :=
  (cs.takeWhile isDigit, cs.dropWhile isDigit)

/-- The whole part of a number: a zero that stands alone, or digits from another one. -/
def whole? : List Char → Option (List Char × List Char)
  | '0' :: rest => some (['0'], rest)
  | cs => if (spanDigits cs).1 = [] then none else some (spanDigits cs)

/-- The digits behind a point, where at least one follows it. -/
def fraction : List Char → List Char × List Char
  | '.' :: rest =>
    if (spanDigits rest).1 = [] then ([], '.' :: rest) else spanDigits rest
  | cs => ([], cs)

/-- The sign in front of an exponent. -/
def exponentSign : List Char → Bool × List Char
  | '-' :: rest => (true, rest)
  | '+' :: rest => (false, rest)
  | cs => (false, cs)

/-- An exponent, where a text starts with one. -/
def exponent? : List Char → Option (Int × List Char)
  | [] => none
  | c :: rest =>
    if c = 'e' ∨ c = 'E' then
      let (negative, rest) := exponentSign rest
      let (ds, rest) := spanDigits rest
      if ds = [] then none
      else
        let n : Int := natOf ds
        some (if negative then -n else n, rest)
    else none

/-- An integer or a binary64 number, behind its sign. -/
def unsigned (negative : Bool) (cs : List Char) (left : Nat) : Reading (Number × List Char) :=
  match whole? cs with
  | none => .error (.flaw .valueExpected left)
  | some (ds, rest) =>
    let (fs, rest) := fraction rest
    match fs, exponent? rest with
    | [], none =>
      if integerDigits < ds.length then .error (.oversized ds.length)
      else
        let n : Int := natOf ds
        .ok (.int (if negative then -n else n), rest)
    | fs, none =>
      .ok (.float (.ofDecimal negative (natOf (ds ++ fs)) (-(fs.length : Int))), rest)
    | fs, some (e, rest) =>
      .ok (.float (.ofDecimal negative (natOf (ds ++ fs)) (e - (fs.length : Int))), rest)

/-- A number from the front of a text. -/
def number : List Char → Reading (Number × List Char)
  | '-' :: rest => unsigned true rest (rest.length + 1)
  | cs => unsigned false cs cs.length

/-! ### Values -/

/-- A value that is spelled out, a string or a number: what is neither array nor object. -/
def plain : List Char → Reading (Document × List Char)
  | '"' :: rest => do
    let (s, rest) ← string (rest.length + 1) [] rest
    return (.string s, rest)
  | 'n' :: 'u' :: 'l' :: 'l' :: rest => .ok (.null, rest)
  | 't' :: 'r' :: 'u' :: 'e' :: rest => .ok (.bool true, rest)
  | 'f' :: 'a' :: 'l' :: 's' :: 'e' :: rest => .ok (.bool false, rest)
  | 'N' :: 'a' :: 'N' :: rest => .ok (.number (.float .nan), rest)
  | 'I' :: 'n' :: 'f' :: 'i' :: 'n' :: 'i' :: 't' :: 'y' :: rest =>
    .ok (.number (.float (.infinite false)), rest)
  | '-' :: 'I' :: 'n' :: 'f' :: 'i' :: 'n' :: 'i' :: 't' :: 'y' :: rest =>
    .ok (.number (.float (.infinite true)), rest)
  | cs => do
    let (n, rest) ← number cs
    return (.number n, rest)

/-- The name of a field, the colon behind it and the space around that. -/
def fieldName : List Char → Reading (String × List Char)
  | '"' :: rest => do
    let (name, rest) ← string (rest.length + 1) [] rest
    match skip rest with
    | ':' :: rest => return (name, skip rest)
    | rest => .error (.flaw .colonExpected rest.length)
  | cs => .error (.flaw .nameExpected cs.length)

mutual

/-- One value from the front of a text. The first argument bounds how deep the reader goes;
since every second step takes up a character, twice the length of the text and one more is
always enough. -/
def value : Nat → List Char → Reading (Document × List Char)
  | 0, cs => .error (.flaw .valueExpected cs.length)
  | fuel + 1, '[' :: rest =>
    match skip rest with
    | ']' :: rest => .ok (.array [], rest)
    | rest => items fuel [] rest
  | fuel + 1, '\x7b' :: rest =>
    match skip rest with
    | '\x7d' :: rest => .ok (.object [], rest)
    | rest => members fuel [] rest
  | _ + 1, cs => plain cs

/-- The items of an array from one of them on; those before it are kept in reverse. -/
def items : Nat → List Document → List Char → Reading (Document × List Char)
  | 0, _, cs => .error (.flaw .valueExpected cs.length)
  | fuel + 1, read, cs => do
    let (item, rest) ← value fuel cs
    match skip rest with
    | ']' :: rest => return (.array (item :: read).reverse, rest)
    | ',' :: rest => items fuel (item :: read) (skip rest)
    | rest => .error (.flaw .commaExpected rest.length)

/-- The fields of an object from one of them on, after those that were read. -/
def members : Nat → List (String × Document) → List Char → Reading (Document × List Char)
  | 0, _, cs => .error (.flaw .valueExpected cs.length)
  | fuel + 1, read, cs => do
    let (name, rest) ← fieldName cs
    let (item, rest) ← value fuel rest
    let read := Document.setField name item read
    match skip rest with
    | '\x7d' :: rest => return (.object read, rest)
    | ',' :: rest => members fuel read (skip rest)
    | rest => .error (.flaw .commaExpected rest.length)

end

/-! ### Whole texts -/

/-- A place in a text: how many characters come before it, and its line and column, which
count from one. -/
structure Place where
  offset : Nat
  line : Nat
  column : Nat
deriving DecidableEq

/-- The place before which the given characters come. -/
def Place.after (before : List Char) : Place where
  offset := before.length
  line := before.count '\n' + 1
  column := (before.reverse.takeWhile (· ≠ '\n')).length + 1

/-- Why a text is not read. -/
inductive Error
  | malformed (flaw : Flaw) (place : Place)
  | oversized (digits : Nat)
deriving DecidableEq

/-- The words for an error, with its place. -/
def Error.message : Error → String
  | .malformed flaw place =>
    flaw.message ++ ": line " ++ Decimal.natString place.line ++ " column " ++
      Decimal.natString place.column ++ " (char " ++ Decimal.natString place.offset ++ ")"
  | .oversized digits =>
    "Exceeds the limit (" ++ Decimal.natString integerDigits ++
      " digits) for integer string conversion: value has " ++ Decimal.natString digits ++
      " digits; use sys.set_int_max_str_digits() to increase the limit"

/-- The document that a text denotes, and nothing else but space around it. -/
def document (cs : List Char) : Except Stop Document :=
  match cs with
  | '\uFEFF' :: _ => .error (.flaw .byteOrderMark cs.length)
  | _ => do
    let (doc, rest) ← value (2 * cs.length + 1) (skip cs)
    match skip rest with
    | [] => return doc
    | rest => .error (.flaw .extraData rest.length)

/-- **Reading a JSON text.** -/
def read (text : String) : Except Error Document :=
  let cs := text.toList
  match document cs with
  | .ok doc => .ok doc
  | .error (.oversized digits) => .error (.oversized digits)
  | .error (.flaw flaw left) =>
    .error (.malformed flaw (Place.after (cs.take (cs.length - left))))

end DocumentFilter.Json
