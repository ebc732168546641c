import DocumentFilter.Number.Reader
import DocumentFilter.Yaml.Text

/-!
# The tokens of a YAML text

A YAML text is cut into tokens. Some are written: indicators, scalars, anchors, aliases and
tags. Others stand for indentation: a block sequence or a block mapping starts where an
entry is indented further than what surrounds it, and ends with that indentation.

A key that is not marked as one shows only by the colon behind it. So the place of every
token that may be a key is kept, one for each level of brackets, until the colon comes or
the line ends; when the colon comes the marks are put in front of that token.

* `DocumentFilter.Yaml.Token`: the tokens;
* `DocumentFilter.Yaml.tokens`: those of a text.
-/

namespace DocumentFilter.Yaml

variable [StandIns]

/-- A tag as it is written. -/
inductive TagText
  /-- An exclamation mark alone: no tag, but the scalar is to be read like a plain one. -/
  | plain
  /-- A handle and what comes behind it. -/
  | handled (handle suffix : String)
  /-- A tag in full. -/
  | verbatim (tag : String)
deriving DecidableEq

/-- A token. -/
inductive Token
  | directive (version : Option Nat)
  | documentStart
  | documentEnd
  | blockSequenceStart
  | blockMappingStart
  | blockEnd
  | flowSequenceStart
  | flowSequenceEnd
  | flowMappingStart
  | flowMappingEnd
  | blockEntry
  | flowEntry
  | key
  | value
  | alias (name : List Char)
  | anchor (name : List Char)
  | tag (tag : TagText)
  | scalar (isPlain : Bool) (text : List Char)
deriving DecidableEq

/-- Where a token stands that may be a key: how many tokens come before it and its place.
It has to be a key if nothing else can stand at its indentation. -/
structure KeyPlace where
  before : Nat
  required : Bool
  index : Nat
  line : Nat
  column : Nat

/-- The state between two tokens. The tokens are kept in reverse; the keys are those of the
levels of brackets, the innermost first, so that there is one more than brackets. -/
structure Scanner where
  cursor : Cursor
  tokens : List Token
  indent : Int
  outer : List Int
  allowKey : Bool
  key : Option KeyPlace
  keys : List (Option KeyPlace)

namespace Scanner

/-- The state before the first token. -/
def start (cs : List Char) : Scanner where
  cursor := .start cs
  tokens := []
  indent := -1
  outer := []
  allowKey := true
  key := none
  keys := []

/-- Inside of brackets. -/
def inFlow (s : Scanner) : Bool := !s.keys.isEmpty

/-! ### Keys -/

/-- Adds a token. -/
def push (token : Token) (s : Scanner) : Scanner :=
  { s with tokens := token :: s.tokens }

/-- Gives up the key of this level, which must not be required. -/
def dropKey (s : Scanner) : Reading Scanner :=
  if s.key.any (·.required) then .error .malformed else .ok { s with key := none }

/-- A key that can no longer be one: its line is over or too far behind. -/
def isStale (c : Cursor) (key : KeyPlace) : Bool :=
  key.line ≠ c.line || c.index > key.index + 1024

/-- Gives up the keys that can no longer be ones. -/
def dropStaleKeys (s : Scanner) : Reading Scanner :=
  let stale (key : Option KeyPlace) := key.any (isStale s.cursor)
  if (s.key :: s.keys).any fun key => stale key && key.any (·.required) then .error .malformed
  else
    let keep (key : Option KeyPlace) := if stale key then none else key
    .ok { s with key := keep s.key, keys := s.keys.map keep }

/-- Keeps the place of the next token, if it may be a key. -/
def saveKey (s : Scanner) : Reading Scanner :=
  if s.allowKey then do
    let s ← s.dropKey
    let c := s.cursor
    let required := !s.inFlow && s.indent = c.column
    return { s with key := some ⟨s.tokens.length, required, c.index, c.line, c.column⟩ }
  else .ok s

/-! ### Indentation -/

/-- The levels of indentation that are left where a line starts at the given column, and
the tokens with the ends of the others. -/
def unwound (column : Int) : Int → List Int → List Token → Int × List Int × List Token
  | indent, [], tokens => (indent, [], tokens)
  | indent, outer :: more, tokens =>
    if column < indent then unwound column outer more (.blockEnd :: tokens)
    else (indent, outer :: more, tokens)

/-- Ends the blocks that are indented further than the given column. -/
def unwind (column : Int) (s : Scanner) : Scanner :=
  if s.inFlow then s
  else
    let (indent, outer, tokens) := unwound column s.indent s.outer s.tokens
    { s with indent := indent, outer := outer, tokens := tokens }

/-- Starts a block at the given column, unless one that is indented as far is there: its
start goes before the last `back` tokens. -/
def addBlock (start : Token) (column : Int) (back : Nat) (s : Scanner) : Scanner :=
  if s.indent < column then
    { s with
      indent := column
      outer := s.indent :: s.outer
      tokens := s.tokens.take back ++ start :: s.tokens.drop back }
  else s

/-! ### Tokens -/

/-- Goes on behind blanks, ends of lines and comments. -/
def skipLines (inFlow : Bool) : Nat → Bool → Cursor → Bool × Cursor
  | 0, allowKey, c => (allowKey, c)
  | fuel + 1, allowKey, c =>
    let c := c.dropSpaces.dropComment
    match c.lineBreak? with
    | none => (allowKey, c)
    | some (_, c) => skipLines inFlow fuel (allowKey || !inFlow) c

/-- Goes on to the next token. A byte order mark at the start is passed over. -/
def skipBlanks (s : Scanner) : Scanner :=
  let c := if s.cursor.index = 0 ∧ s.cursor.sees '\uFEFF' then s.cursor.next else s.cursor
  let (allowKey, c) := skipLines s.inFlow (c.rest.length + 1) s.allowKey c
  { s with cursor := c, allowKey := allowKey }

/-- Adds a token that takes up some characters. -/
def indicator (token : Token) (width : Nat) (s : Scanner) : Scanner :=
  { s with tokens := token :: s.tokens, cursor := s.cursor.skip width }

/-- A separator of documents. -/
def separator (token : Token) (s : Scanner) : Reading Scanner := do
  let s ← (s.unwind (-1)).dropKey
  return { s.indicator token 3 with allowKey := false }

/-- A character of the name of a directive, an anchor or an alias. -/
def isNameChar (c : Char) : Bool :=
  ('0' ≤ c && c ≤ '9') || ('A' ≤ c && c ≤ 'Z') || ('a' ≤ c && c ≤ 'z') || c = '-' || c = '_'

/-- A decimal number of one digit or more. -/
def decimal (c : Cursor) : Reading (Nat × Cursor) :=
  let (ds, c) := c.take fun x => (Text.asciiDigit? x).isSome
  if ds = [] then .error .malformed
  else if Number.integerDigits < ds.length then .error .longVersion
  else .ok ((ds.filterMap Text.asciiDigit?).foldl (fun n d => 10 * n + d) 0, c)

/-- A version, of which the part before the point is told. -/
def version (c : Cursor) : Reading (Nat × Cursor) := do
  let (major, c) ← decimal c.dropSpaces
  if c.sees '.' then
    let (_, c) ← decimal c.next
    if endsField c.peek then return (major, c) else .error .malformed
  else .error .malformed

/-- A directive. Only the version of the language means anything. -/
def directive (s : Scanner) : Reading Scanner := do
  let s ← (s.unwind (-1)).dropKey
  let (name, c) := s.cursor.next.take isNameChar
  if name = [] ∨ !endsField c.peek then .error .malformed
  else
    let (major, c) ←
      if name = ['Y', 'A', 'M', 'L'] then (version c).map fun (n, c) => (some n, c)
      else pure (none, c.drop isInline)
    let c := c.dropSpaces.dropComment
    if endsLine c.peek then
      return { s with
        tokens := .directive major :: s.tokens
        cursor := ((c.lineBreak?).map (·.2)).getD c
        allowKey := false }
    else .error .malformed

/-- An opening bracket. -/
def openFlow (token : Token) (s : Scanner) : Reading Scanner := do
  let s ← s.saveKey
  return { s.indicator token 1 with allowKey := true, key := none, keys := s.key :: s.keys }

/-- A closing bracket. -/
def closeFlow (token : Token) (s : Scanner) : Reading Scanner :=
  match s.keys with
  | [] => .error .malformed
  | key :: keys => .ok { s.indicator token 1 with allowKey := false, key := key, keys := keys }

/-- A comma between brackets. -/
def flowEntry (s : Scanner) : Reading Scanner := do
  let s ← s.dropKey
  return { s.indicator .flowEntry 1 with allowKey := true }

/-- A dash or a question mark in front of an entry, which starts a block of its own where it
is indented further. -/
def blockEntry (token start : Token) (s : Scanner) : Reading Scanner := do
  if s.inFlow then (·.indicator token 1) <$> s.dropKey
  else if s.allowKey then
    let s ← (s.addBlock start s.cursor.column 0).dropKey
    return s.indicator token 1
  else .error .malformed

/-- The dash of a sequence. -/
def dash (s : Scanner) : Reading Scanner := do
  let s ← s.blockEntry .blockEntry .blockSequenceStart
  return { s with allowKey := true }

/-- The question mark of a mapping. -/
def question (s : Scanner) : Reading Scanner := do
  let s ← s.blockEntry .key .blockMappingStart
  return { s with allowKey := !s.inFlow }

/-- The colon of a mapping: the token before it is a key where a key was kept. -/
def colon (s : Scanner) : Reading Scanner :=
  match s.key with
  | some key =>
    let back := s.tokens.length - key.before
    let s := { s with
      key := none
      allowKey := false
      tokens := s.tokens.take back ++ Token.key :: s.tokens.drop back }
    let s := if s.inFlow then s else s.addBlock .blockMappingStart key.column (back + 1)
    .ok (s.indicator .value 1)
  | none => do
    if !s.inFlow && !s.allowKey then .error .malformed
    else
      let s := if s.inFlow then s else s.addBlock .blockMappingStart s.cursor.column 0
      let s ← { s with allowKey := !s.inFlow }.dropKey
      return s.indicator .value 1

/-- The characters behind the name of an anchor or an alias. -/
def followsName : Option Char → Bool
  | none => true
  | some c => endsWord (some c) || (c ∈ ['?', ':', ',', ']', '\x7d', '%', '@', '\x60'])

/-- An anchor or an alias. -/
def reference (token : List Char → Token) (s : Scanner) : Reading Scanner := do
  let s ← s.saveKey
  let (name, c) := s.cursor.next.take isNameChar
  if name = [] ∨ !followsName c.peek then .error .malformed
  else return { s with tokens := token name :: s.tokens, cursor := c, allowKey := false }

/-- A character of a tag. -/
def isTagChar (c : Char) : Bool :=
  isNameChar c || (c ∈ [';', '/', '?', ':', '@', '&', '=', '+', '$', ',', '.', '!', '~', '*', '\'',
    '(', ')', '[', ']', '%'])

/-- The part of a tag behind its handle, which is not empty. -/
def tagSuffix (c : Cursor) : Reading (String × Cursor) :=
  let (suffix, c) := c.take isTagChar
  if suffix = [] then .error .malformed else .ok (String.ofList suffix, c)

/-- A handle with a second exclamation mark occurs before the tag ends. -/
def hasHandle (cs : List Char) : Bool :=
  (cs.takeWhile fun c => !endsField (some c)).contains '!'

/-- A tag. -/
def tagText (c : Cursor) : Reading (TagText × Cursor) := do
  let inner := c.next
  if inner.sees '<' then
    let (suffix, c) ← tagSuffix inner.next
    if c.sees '>' then return (if suffix = "!" then .plain else .verbatim suffix, c.next)
    else .error .malformed
  else if endsWord inner.peek then return (.plain, inner)
  else if hasHandle inner.rest then
    let (name, c) := inner.take isNameChar
    if c.sees '!' then
      let (suffix, c) ← tagSuffix c.next
      return (.handled (String.ofList ('!' :: name ++ ['!'])) suffix, c)
    else .error .malformed
  else
    let (suffix, c) ← tagSuffix inner
    return (.handled "!" suffix, c)

/-- A tag token. -/
def tag (s : Scanner) : Reading Scanner := do
  let s ← s.saveKey
  let (tag, c) ← tagText s.cursor
  if endsField c.peek then
    return { s with tokens := .tag tag :: s.tokens, cursor := c, allowKey := false }
  else .error .malformed

/-- A block scalar. -/
def blockScalar (folded : Bool) (s : Scanner) : Reading Scanner := do
  let s ← s.dropKey
  let (text, c) ← block folded s.indent s.cursor.next
  return { s with tokens := .scalar false text :: s.tokens, cursor := c, allowKey := true }

/-- A scalar between quotes. -/
def quotedScalar (double : Bool) (s : Scanner) : Reading Scanner := do
  let s ← s.saveKey
  let (text, c) ← quoted double s.cursor.next
  return { s with tokens := .scalar false text :: s.tokens, cursor := c, allowKey := false }

/-- A character that no plain scalar starts with. -/
def isIndicator (c : Char) : Bool :=
  endsWord (some c) || (c ∈ ['-', '?', ':', ',', '[', ']', '\x7b', '\x7d', '#', '&', '*', '!', '|',
    '>', '\'', '"', '%', '@', '\x60'])

/-- A plain scalar starts here; a dash, and in a block a question mark or a colon, may start
one in front of a word. -/
def seesPlain (s : Scanner) : Bool :=
  match s.cursor.peek with
  | none => false
  | some c => !isIndicator c ||
      (!endsWord (s.cursor.peekAt 1) && (c = '-' || (!s.inFlow && (c = '?' || c = ':'))))

/-- A plain scalar. -/
def plainScalar (s : Scanner) : Reading Scanner := do
  let s ← s.saveKey
  let (text, broken, c) := plain s.inFlow (s.indent + 1) s.cursor
  return { s with tokens := .scalar true text :: s.tokens, cursor := c, allowKey := broken }

/-- The next token, which starts with the given character. -/
def fetch (x : Char) (s : Scanner) : Reading Scanner :=
  let c := s.cursor
  let atLine := c.column = 0
  let alone := endsWord (c.peekAt 1)
  if x = '%' ∧ atLine then s.directive
  else if atLine ∧ c.seesMarker ['-', '-', '-'] then s.separator .documentStart
  else if atLine ∧ c.seesMarker ['.', '.', '.'] then s.separator .documentEnd
  else if x = '[' then s.openFlow .flowSequenceStart
  else if x = '\x7b' then s.openFlow .flowMappingStart
  else if x = ']' then s.closeFlow .flowSequenceEnd
  else if x = '\x7d' then s.closeFlow .flowMappingEnd
  else if x = ',' then s.flowEntry
  else if x = '-' ∧ alone then s.dash
  else if x = '?' ∧ (s.inFlow ∨ alone) then s.question
  else if x = ':' ∧ (s.inFlow ∨ alone) then s.colon
  else if x = '*' then s.reference .alias
  else if x = '&' then s.reference .anchor
  else if x = '!' then s.tag
  else if x = '|' ∧ !s.inFlow then s.blockScalar false
  else if x = '>' ∧ !s.inFlow then s.blockScalar true
  else if x = '\'' then s.quotedScalar false
  else if x = '"' then s.quotedScalar true
  else if s.seesPlain then s.plainScalar
  else .error .malformed

/-- The tokens from here to the end of the text. -/
def run : Nat → Scanner → Reading (List Token)
  | 0, _ => .error .malformed
  | fuel + 1, s => do
    let s ← s.skipBlanks.dropStaleKeys
    let s := s.unwind s.cursor.column
    match s.cursor.peek with
    | none =>
      let s ← (s.unwind (-1)).dropKey
      return s.tokens.reverse
    | some x => run fuel (← s.fetch x)

end Scanner

/-- A character that may stand in a YAML text. -/
def isAllowed (c : Char) : Bool :=
  let n := c.toNat
  n = 0x09 || n = 0x0A || n = 0x0D || (0x20 ≤ n && n ≤ 0x7E) || n = 0x85 ||
    (0xA0 ≤ n && n ≤ 0xD7FF) || (0xE000 ≤ n && n ≤ 0xFFFD) || 0x10000 ≤ n

/-- **The tokens of a text.** -/
def tokens (cs : List Char) : Reading (List Token) :=
  if cs.all isAllowed then Scanner.run (cs.length + 1) (.start cs) else .error .malformed

end DocumentFilter.Yaml
