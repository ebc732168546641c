import DocumentFilter.Text.StandIns
import DocumentFilter.Yaml.Cursor

/-!
# The texts of scalars

How the text of a scalar is read in each of its styles. In the plain and in the two quoted
styles a single end of a line stands for a space and more of them for all but the first.
In the block styles a text is indented; `|` keeps the ends of its lines and `>` folds them
like the other styles, except around lines that are indented further.

* `DocumentFilter.Yaml.plain`: a plain scalar;
* `DocumentFilter.Yaml.quoted`: a scalar between quotes;
* `DocumentFilter.Yaml.block`: a block scalar.
-/

namespace DocumentFilter.Yaml

/-- Why a text cannot be read as YAML. -/
inductive Flaw
  /-- It is not well formed. -/
  | malformed
  /-- An escape gives a number that is beyond all characters. -/
  | noCharacter
  /-- An escape gives a number that is beyond all integers of the machine. -/
  | hugeCharacter
  /-- A version has more digits than are read as an integer. -/
  | longVersion
deriving DecidableEq

/-- The reader's computations. -/
abbrev Reading := Except Flaw

/-! ### Plain scalars -/

/-- What may follow the colon behind a key. -/
def followsColon (flow : Bool) : Option Char → Bool
  | none => true
  | some c => endsWord (some c) || (flow && (c ∈ [',', '[', ']', '\x7b', '\x7d']))

/-- The characters of a plain scalar up to the next blank: a colon ends it before a value,
and inside of brackets so do commas, question marks and brackets. -/
def plainWord (flow : Bool) : List Char → List Char
  | [] => []
  | c :: rest =>
    if endsWord (some c) || (c = ':' && followsColon flow rest.head?) ||
        (flow && (c ∈ [',', '?', '[', ']', '\x7b', '\x7d'])) then []
    else c :: plainWord flow rest

/-- What the end of a line and the empty lines after it stand for. -/
def foldedBreak (first : Char) (more : List Char) : List Char :=
  if first ≠ '\n' then first :: more
  else if more = [] then [' '] else more

/-- The ends of lines that come next, with the spaces around them, up to a separator of
documents; the flag says whether there was one. -/
def plainBreaks : Nat → Cursor → List Char × Bool × Cursor
  | 0, c => ([], false, c)
  | fuel + 1, c =>
    if c.sees ' ' then plainBreaks fuel c.next
    else
      match c.lineBreak? with
      | none => ([], false, c)
      | some (x, c) =>
        if c.seesSeparator then ([x], true, c)
        else
          let (more, separated, c) := plainBreaks fuel c
          (x :: more, separated, c)

/-- The blanks behind a word of a plain scalar: what they stand for, whether they end a
line, and what is left. -/
def plainBlanks (c : Cursor) : List Char × Bool × Cursor :=
  let (spaces, c) := c.take (· = ' ')
  match c.lineBreak? with
  | none => (spaces, false, c)
  | some (x, c) =>
    if c.seesSeparator then ([], true, c)
    else
      let (more, separated, c) := plainBreaks (c.rest.length + 1) c
      (if separated then [] else foldedBreak x more, true, c)

/-- A plain scalar from the given blanks on, which come before its next word. It goes on as
long as words follow that are indented enough. The flag says whether the last blanks end a
line. -/
def plainWords (flow : Bool) (indent : Int) :
    Nat → List Char → Bool → Cursor → List Char × Bool × Cursor
  | 0, _, broken, c => ([], broken, c)
  | fuel + 1, blanks, broken, c =>
    let word := plainWord flow c.rest
    if c.sees '#' ∨ word = [] then ([], broken, c)
    else
      let (next, broken, c) := plainBlanks (c.skip word.length)
      if next = [] ∨ (!flow ∧ (c.column : Int) < indent) then (blanks ++ word, broken, c)
      else
        let (more, broken, c) := plainWords flow indent fuel next broken c
        (blanks ++ word ++ more, broken, c)

/-- **A plain scalar.** In a block it goes on over lines that are indented by at least
`indent`. The flag says whether it ends at the end of a line. -/
def plain (flow : Bool) (indent : Int) (c : Cursor) : List Char × Bool × Cursor :=
  plainWords flow indent (c.rest.length + 1) [] false c

/-! ### Quoted scalars -/

/-- The ends of lines that come next, with the blanks around them. -/
def quotedBreaks : Nat → Cursor → Reading (List Char × Cursor)
  | 0, c => .ok ([], c)
  | fuel + 1, c =>
    if c.seesSeparator then .error .malformed
    else
      let c := c.drop isBlank
      match c.lineBreak? with
      | none => .ok ([], c)
      | some (x, c) => (quotedBreaks fuel c).map fun (more, c) => (x :: more, c)

/-- The blanks inside of quotes: what they stand for, and what is left. -/
def quotedBlanks (c : Cursor) : Reading (List Char × Cursor) :=
  let (blanks, c) := c.take isBlank
  match c.lineBreak? with
  | none => .ok (blanks, c)
  | some (x, c) =>
    (quotedBreaks (c.rest.length + 1) c).map fun (more, c) => (foldedBreak x more, c)

/-- The character that a one-letter escape stands for. -/
def escape? : Char → Option Char
  | '0' => some '\x00'
  | 'a' => some '\x07'
  | 'b' => some '\x08'
  | 't' => some '\t'
  | '\t' => some '\t'
  | 'n' => some '\n'
  | 'v' => some '\x0b'
  | 'f' => some '\x0c'
  | 'r' => some '\r'
  | 'e' => some '\x1b'
  | ' ' => some ' '
  | '"' => some '"'
  | '\\' => some '\\'
  | '/' => some '/'
  | 'N' => some '\u0085'
  | '_' => some '\u00a0'
  | 'L' => some '\u2028'
  | 'P' => some '\u2029'
  | _ => none

/-- The number of hexadecimal digits behind the letter of an escape. -/
def escapeWidth? : Char → Option Nat
  | 'x' => some 2
  | 'u' => some 4
  | 'U' => some 8
  | _ => none

variable [StandIns]

/-- The character with a code point, or the one that stands in for a half of a pair. -/
def codeCharacter (n : Nat) : Reading Char :=
  if Text.isHalf n then .ok (StandIns.char n)
  else if n.isValidChar then .ok (Char.ofNat n)
  else if n < 0x80000000 then .error .noCharacter
  else .error .hugeCharacter

/-- The escape behind a backslash: what it stands for, and what is left. -/
def escape (c : Cursor) : Reading (List Char × Cursor) :=
  match c.peek with
  | none => .error .malformed
  | some x =>
    match escape? x, escapeWidth? x with
    | some y, _ => .ok ([y], c.next)
    | none, some width =>
      let ds := c.next.rest.take width
      if ds.length < width then .error .malformed
      else
        match ds.mapM Text.hexDigit? with
        | none => .error .malformed
        | some ds => do
          let y ← codeCharacter (ds.foldl (fun n d => 16 * n + d) 0)
          return ([y], c.next.skip width)
    | none, none =>
      match c.lineBreak? with
      | none => .error .malformed
      | some (_, c) => quotedBreaks (c.rest.length + 1) c

/-- Puts a text in front of one that was read. -/
def prepend (text : List Char) (read : List Char × Cursor) : List Char × Cursor :=
  (text ++ read.1, read.2)

/-- **A scalar between quotes**, from behind the first. -/
def quotedFrom (double : Bool) : Nat → Cursor → Reading (List Char × Cursor)
  | 0, _ => .error .malformed
  | fuel + 1, c =>
    match c.rest with
    | [] => .error .malformed
    | x :: rest =>
      if x = '"' ∧ double then .ok ([], c.next)
      else if x = '\'' ∧ !double then
        if rest.head? = some '\'' then
          (quotedFrom double fuel (c.skip 2)).map (prepend ['\''])
        else .ok ([], c.next)
      else if x = '\\' ∧ double then do
        let (text, c) ← escape c.next
        (quotedFrom double fuel c).map (prepend text)
      else if isBlank x || isBreak x then do
        let (text, c) ← quotedBlanks c
        (quotedFrom double fuel c).map (prepend text)
      else (quotedFrom double fuel c.next).map (prepend [x])

/-- The same, with as many steps as there are characters. -/
def quoted (double : Bool) (c : Cursor) : Reading (List Char × Cursor) :=
  quotedFrom double (c.rest.length + 1) c

/-! ### Block scalars -/

/-- What becomes of the ends of lines after the text of a block scalar: one is kept
unless the header says none or all. -/
inductive Chomping
  | clip
  | strip
  | keep
deriving DecidableEq

/-- The sign of a header. -/
def chomping? : Option Char → Option Chomping
  | some '+' => some .keep
  | some '-' => some .strip
  | _ => none

/-- The digit of a header, which is not zero. -/
def increment? (c : Cursor) : Reading (Option Nat × Cursor) :=
  match c.peek.bind Text.asciiDigit? with
  | none => .ok (none, c)
  | some 0 => .error .malformed
  | some n => .ok (some n, c.next)

/-- A header: a sign and a digit, in either order, each of which can be missing. -/
def header (c : Cursor) : Reading (Chomping × Option Nat × Cursor) := do
  match chomping? c.peek with
  | some chomping =>
    let (increment, c) ← increment? c.next
    return (chomping, increment, c)
  | none =>
    let (increment, c) ← increment? c
    match increment, chomping? c.peek with
    | some _, some chomping => return (chomping, increment, c.next)
    | _, _ => return (.clip, increment, c)

/-- The rest of a header line: spaces and a comment. -/
def headerEnd (c : Cursor) : Reading Cursor :=
  if endsField c.peek then
    let c := c.dropSpaces.dropComment
    if endsLine c.peek then .ok (((c.lineBreak?).map (·.2)).getD c) else .error .malformed
  else .error .malformed

/-- The empty lines before a text whose indentation is not given, and the greatest column
that their spaces reach. -/
def leadingLines : Nat → Nat → Cursor → List Char × Nat × Cursor
  | 0, deepest, c => ([], deepest, c)
  | fuel + 1, deepest, c =>
    if c.sees ' ' then leadingLines fuel (max deepest c.next.column) c.next
    else
      match c.lineBreak? with
      | none => ([], deepest, c)
      | some (x, c) =>
        let (more, deepest, c) := leadingLines fuel deepest c
        (x :: more, deepest, c)

/-- Goes on behind the spaces up to a column. -/
def dropIndent (indent : Nat) (c : Cursor) : Cursor :=
  c.skip ((c.rest.take (indent - c.column)).takeWhile (· = ' ')).length

/-- The empty lines that come next, with their indentation, and that of the line after
them. -/
def emptyLines (indent : Nat) : Nat → Cursor → List Char × Cursor
  | 0, c => ([], c)
  | fuel + 1, c =>
    let c := dropIndent indent c
    match c.lineBreak? with
    | none => ([], c)
    | some (x, c) =>
      let (more, c) := emptyLines indent fuel c
      (x :: more, c)

/-- A line of a block scalar follows. -/
def seesLine (indent : Nat) (c : Cursor) : Bool :=
  c.column = indent && c.peek.isSome

/-- The lines of a block scalar, from behind the ends of the empty lines before the first
of them. The end of the last line and those of the empty lines behind it come apart. -/
def blockLines (folded : Bool) (indent : Nat) :
    Nat → List Char → Cursor → List Char × List Char × List Char × Cursor
  | 0, breaks, c => ([], [], breaks, c)
  | fuel + 1, breaks, c =>
    let flush := !c.meets isBlank
    let (line, c) := c.take isInline
    let (ending, c) := match c.lineBreak? with
      | none => ([], c)
      | some (x, c) => ([x], c)
    let (next, c) := emptyLines indent (c.rest.length + 1) c
    if seesLine indent c then
      let joint :=
        if folded ∧ ending = ['\n'] ∧ flush ∧ !c.meets isBlank then
          if next = [] then [' '] else []
        else ending
      let (more, ending, last, c) := blockLines folded indent fuel next c
      (breaks ++ line ++ joint ++ more, ending, last, c)
    else (breaks ++ line, ending, next, c)

/-- **A block scalar**, from behind its indicator, in a block that is indented by `outer`. -/
def block (folded : Bool) (outer : Int) (c : Cursor) : Reading (List Char × Cursor) := do
  let (chomping, increment, c) ← header c
  let c ← headerEnd c
  let least := (max (outer + 1) 1).toNat
  let (indent, breaks, c) := match increment with
    | none =>
      let (breaks, deepest, c) := leadingLines (c.rest.length + 1) 0 c
      (max least deepest, breaks, c)
    | some n =>
      let indent := least + n - 1
      let (breaks, c) := emptyLines indent (c.rest.length + 1) c
      (indent, breaks, c)
  let (read, ending, breaks, c) :=
    if seesLine indent c then
      blockLines folded indent (c.rest.length + 1) breaks c
    else ([], [], breaks, c)
  return (match chomping with
    | .strip => read
    | .clip => read ++ ending
    | .keep => read ++ ending ++ breaks, c)

end DocumentFilter.Yaml
