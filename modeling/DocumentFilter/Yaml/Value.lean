import DocumentFilter.Config.Value
import DocumentFilter.Filter.Operation
import DocumentFilter.Number.Reader
import DocumentFilter.Yaml.Node

/-!
# The value of a YAML text

The tree of a text becomes a configuration value. A mapping takes over the entries of the
mappings that it merges, in front of its own, which win over them.

Where a scalar is asked for, a mapping will do that has a default key, which is an equals sign:
what stands under the first such key is read in its place.

Not every tree has a value: a tag may be unknown or not fit its node, a key may be a
collection, a number or a date may be none. Of several faults the one that is highest in
the tree counts, and among those the first.

* `DocumentFilter.Yaml.build`: the value of a node, with the faults in it;
* `DocumentFilter.Yaml.read`: the value of a text.
-/

namespace DocumentFilter.Yaml

/-- Why a text has no value. -/
inductive Error
  /-- It is not well formed, or says something that has no meaning here. -/
  | malformed
  /-- An escape gives a number that is beyond all characters. -/
  | noCharacter
  /-- A number is none, or has more digits than are read as an integer. -/
  | badNumber
  /-- A number is beyond all integers of the machine or all finite numbers. -/
  | hugeNumber
  /-- A number has no characters. -/
  | emptyNumber
  /-- A truth value is none. -/
  | badWord
  /-- A date or a time is none. -/
  | noDate
  /-- A date or a time is out of range. -/
  | badDate
  /-- A date or a time is no text. -/
  | notText
deriving DecidableEq

/-- The same of the tokens of a text. -/
def Flaw.error : Flaw → Error
  | .malformed => .malformed
  | .noCharacter => .noCharacter
  | .hugeCharacter => .hugeNumber
  | .longVersion => .badNumber

/-! ### Scalars -/

/-- The value of a digit of any base up to 16. -/
def digitValue? (c : Char) : Option Nat :=
  (Text.digit? c).or (Text.hexDigit? c)

/-- The number that digits denote in a base; decimal ones are at most 4300. -/
def natIn? (base : Nat) (cs : List Char) : Option Nat := do
  let ds ← cs.mapM digitValue?
  if ds = [] ∨ (ds.any fun d => base ≤ d) ∨ (base = 10 ∧ Number.integerDigits < ds.length) then
    none
  else some (ds.foldl (fun n d => base * n + d) 0)

/-- A text without the mark of its base. -/
def dropBase (base : Nat) : List Char → List Char
  | '0' :: c :: rest =>
    if (base = 2 ∧ (c = 'b' ∨ c = 'B')) ∨ (base = 8 ∧ (c = 'o' ∨ c = 'O')) ∨
        (base = 16 ∧ (c = 'x' ∨ c = 'X')) then rest
    else '0' :: c :: rest
  | cs => cs

/-- The integer that a text denotes in a base, with blanks around it and a sign. -/
def integerIn? (base : Nat) (cs : List Char) : Option Int := do
  let (negative, cs) := Number.sign (Text.strip cs)
  let n ← natIn? base (dropBase base cs)
  return if negative then -(n : Int) else n

/-- The parts of a text between colons. -/
def colonParts : List Char → List (List Char)
  | [] => [[]]
  | c :: rest =>
    match colonParts rest with
    | [] => [[c]]
    | part :: parts => if c = ':' then [] :: part :: parts else (c :: part) :: parts

/-- The integer without a sign that a scalar denotes: binary, hexadecimal, octal, in parts
of sixty or decimal. -/
def magnitude? (cs : List Char) : Option Int :=
  match cs with
  | ['0'] => some 0
  | '0' :: 'b' :: ds => integerIn? 2 ds
  | '0' :: 'x' :: ds => integerIn? 16 ds
  | '0' :: _ => integerIn? 8 cs
  | _ =>
    if cs.contains ':' then
      ((colonParts cs).mapM (integerIn? 10)).map fun parts => parts.foldl (fun n d => 60 * n + d) 0
    else integerIn? 10 cs

/-- The integer of a scalar. -/
def integerValue (cs : List Char) : Except Error Value :=
  let cs := cs.filter (· ≠ '_')
  let (negative, cs) := Number.sign cs
  if cs = [] then .error .emptyNumber
  else
    match magnitude? cs with
    | none => .error .badNumber
    | some n => .ok (.number (.int (if negative then -n else n)))

/-- The binary64 number that a text denotes, with blanks around it. -/
def float? (cs : List Char) : Option Binary64 :=
  let cs := Text.strip cs
  let (negative, word) := Number.sign cs
  if word = "inf".toList ∨ word = "infinity".toList then some (.infinite negative)
  else if word = "nan".toList then some .nan
  else Number.decimal? cs

/-- A binary64 number some positive number of times, rounded. -/
def times (factor : Rat) (x : Binary64) : Binary64 :=
  match x.toRat? with
  | some r => .nearest (r * factor)
  | none => x

/-- The sum of two binary64 numbers, rounded; a zero that comes out has no sign. -/
def plus (x y : Binary64) : Binary64 :=
  match x.toRat?, y.toRat? with
  | some r, some s => .nearest (r + s)
  | none, some _ => x
  | some _, none => y
  | none, none => if x = y then x else .nan

/-- Adds parts to a number, the last of them first: one counts `base` times, and each
further one sixty times as much as the one before. The powers of sixty are rounded too. -/
def sexagesimal (value : Binary64) (base : Nat) : List Binary64 → Except Error Binary64
  | [] => .ok value
  | part :: parts =>
    match (Binary64.ofRat false base).toRat? with
    | none => .error .hugeNumber
    | some factor => sexagesimal (plus value (times factor part)) (60 * base) parts

/-- The binary64 number without a sign that a scalar denotes. -/
def floatMagnitude (cs : List Char) : Except Error Binary64 :=
  if cs = ".inf".toList then .ok (.infinite false)
  else if cs = ".nan".toList then .ok .nan
  else if cs.contains ':' then
    match (colonParts cs).mapM float? with
    | none => .error .badNumber
    | some parts => sexagesimal (.zero false) 1 parts.reverse
  else
    match float? cs with
    | none => .error .badNumber
    | some x => .ok x

/-- The binary64 number of a scalar. -/
def floatValue (cs : List Char) : Except Error Value :=
  let cs := (cs.filter (· ≠ '_')).map Operation.lowerChar
  if cs = [] then .error .emptyNumber
  else
    let (negative, cs) := Number.sign cs
    (floatMagnitude cs).map fun x => .number (.float (if negative then x.negate else x))

/-- The truth value of a scalar. -/
def boolValue (cs : List Char) : Except Error Value :=
  let word := String.ofList (cs.map Operation.lowerChar)
  if ["yes", "true", "on"].contains word then .ok (.bool true)
  else if ["no", "false", "off"].contains word then .ok (.bool false)
  else .error .badWord

/-- The day or the timestamp of a scalar. -/
def timestampValue (cs : List Char) : Except Error Value :=
  match timestampText? (dropLineFeed cs) with
  | none => .error .noDate
  | some ⟨date, none⟩ =>
    match Moment.ofFields date ⟨0, 0, 0, 0⟩ with
    | .ok moment => .ok (.date moment.day)
    | .error _ => .error .badDate
  | some ⟨date, some (clock, offset)⟩ =>
    match Moment.ofFields date clock with
    | .ok wall => if Iso.OffsetInRange offset then .ok (.timestamp ⟨wall, offset⟩)
        else .error .badDate
    | .error _ => .error .badDate

/-- The value of a scalar. A collection's tag on a scalar is a fault inside of it. -/
def scalarValue (tag : Tag) (cs : List Char) : Except Error Value :=
  match tag with
  | .null => .ok .null
  | .bool => boolValue cs
  | .int => integerValue cs
  | .float => floatValue cs
  | .timestamp => timestampValue cs
  | .text => .ok (.string (String.ofList cs))
  | .default => .ok (.string (String.ofList cs))
  | .sequence => .ok (.list [])
  | .mapping => .ok (.map [])
  | _ => .error .malformed

/-! ### Faults -/

/-- The faults inside of a value, one list for each level of the tree below it. -/
abbrev Levels := List (List Error)

/-- The faults of two values side by side. -/
def Levels.beside : Levels → Levels → Levels
  | [], levels => levels
  | levels, [] => levels
  | level :: levels, level' :: levels' => (level ++ level') :: beside levels levels'

/-- The first fault of the highest level that has one. -/
def Levels.first? (levels : Levels) : Option Error :=
  levels.flatten.head?

/-! ### Nodes -/

/-- What becomes of a node: its value, the faults of the node itself and those inside. -/
structure Built where
  value : Value
  faults : List Error
  inside : Levels

/-- What becomes of an entry of a mapping. -/
structure BuiltEntry where
  key : Value
  value : Value
  faults : List Error
  inside : Levels

/-- What becomes of the entries of a mapping: those it merges, its own, and whether it can
merge what it says. -/
structure BuiltEntries where
  merged : List BuiltEntry
  own : List BuiltEntry
  mergeable : Bool

/-- All entries, the merged ones first. -/
def BuiltEntries.all (entries : BuiltEntries) : List BuiltEntry :=
  entries.merged ++ entries.own

/-- A value that may be a key. -/
def canBeKey : Value → Bool
  | .list _ => false
  | .map _ => false
  | _ => true

/-- What becomes of a scalar. -/
def buildScalar (tag : Tag) (cs : List Char) : Built :=
  let inside : Levels := if tag = .sequence ∨ tag = .mapping then [[.malformed]] else []
  match scalarValue tag cs with
  | .ok value => ⟨value, [], inside⟩
  | .error error => ⟨.null, [error], inside⟩

/-- What becomes of a sequence whose items are built. -/
def buildSequence (tag : Tag) (items : List Built) : Built :=
  let inside : Levels :=
    (items.map (·.faults)).flatten ::
      items.foldr (fun item levels => Levels.beside item.inside levels) []
  match tag with
  | .sequence => ⟨.list (items.map (·.value)), [], inside⟩
  | .mapping => ⟨.map [], [], [[.malformed]]⟩
  | .itself => ⟨.list [], [], []⟩
  | _ => ⟨.null, [.malformed], []⟩

/-- What becomes of a mapping that is read as a scalar, from the text under its default key. The
reader of dates does not expect one. -/
def buildDefault (tag : Tag) : Option (List Char) → Built
  | none => ⟨.null, [.malformed], []⟩
  | some cs => if tag = .timestamp then ⟨.null, [.notText], []⟩ else buildScalar tag cs

/-- What becomes of a mapping whose entries are built, with the text under its default key. -/
def buildMapping (tag : Tag) (text : Option (List Char)) (entries : BuiltEntries) : Built :=
  let all := entries.all
  let inside : Levels :=
    if entries.mergeable then
      (all.map (·.faults)).flatten ::
        all.foldr (fun entry levels => Levels.beside entry.inside levels) []
    else [[.malformed]]
  match tag with
  | .mapping =>
    ⟨.map (all.foldl (fun map entry => Value.setEntry entry.key entry.value map) []), [], inside⟩
  | .sequence => ⟨.list [], [], [[.malformed]]⟩
  | .itself => ⟨.map [], [], []⟩
  | tag => buildDefault tag text

/-- An entry whose key and value are built. -/
def buildEntry (key value : Built) : BuiltEntry where
  key := key.value
  value := value.value
  faults := key.faults ++ (if canBeKey key.value then [] else [.malformed]) ++ value.faults
  inside := Levels.beside key.inside value.inside

mutual

/-- The text of a node that is read as a scalar. -/
def scalarText : Node → Option (List Char)
  | .scalar _ text => some text
  | .sequence _ _ => none
  | .mapping _ entries => defaultText entries

/-- The text under the first default key of several entries. -/
def defaultText : List (Node × Node) → Option (List Char)
  | [] => none
  | (key, value) :: rest => if key.tag = .default then scalarText value else defaultText rest

end

mutual

/-- **What becomes of a node.** -/
def build : Node → Built
  | .scalar tag text => buildScalar tag text
  | .sequence tag items => buildSequence tag (buildItems items)
  | .mapping tag entries => buildMapping tag (defaultText entries) (buildEntries entries)

/-- What becomes of several nodes. -/
def buildItems : List Node → List Built
  | [] => []
  | item :: rest => build item :: buildItems rest

/-- What becomes of the entries of a mapping. -/
def buildEntries : List (Node × Node) → BuiltEntries
  | [] => ⟨[], [], true⟩
  | (key, value) :: rest =>
    let more := buildEntries rest
    if key.tag = .merge then
      match mergedBy value with
      | some entries => ⟨entries ++ more.merged, more.own, more.mergeable⟩
      | none => ⟨[], [], false⟩
    else ⟨more.merged, buildEntry (build key) (build value) :: more.own, more.mergeable⟩

/-- The entries that a mapping takes over from the value of a merging key: from a mapping or
from a list of them, the later ones first; none from anything else. -/
def mergedBy : Node → Option (List BuiltEntry)
  | .mapping _ entries =>
    let entries := buildEntries entries
    if entries.mergeable then some entries.all else none
  | .sequence _ items => (mergedByEach items).map fun lists => lists.reverse.flatten
  | .scalar _ _ => none

/-- The entries that a mapping takes over from each of several others. -/
def mergedByEach : List Node → Option (List (List BuiltEntry))
  | [] => some []
  | .mapping _ entries :: rest =>
    let entries := buildEntries entries
    if entries.mergeable then (mergedByEach rest).map (entries.all :: ·) else none
  | _ :: _ => none

end

/-- The value of a node, or the fault that counts. -/
def valueOf (node : Node) : Except Error Value :=
  let built := build node
  match Levels.first? (built.faults :: built.inside) with
  | some error => .error error
  | none => .ok built.value

/-- **The value of a text.** A text without a document is null. -/
def read [StandIns] (text : List Char) : Except Error Value :=
  match tokens text with
  | .error flaw => .error flaw.error
  | .ok tokens =>
    match Node.ofTokens? tokens with
    | none => .error .malformed
    | some none => .ok .null
    | some (some node) => valueOf node

end DocumentFilter.Yaml
