import DocumentFilter.Yaml.Timestamp
import DocumentFilter.Yaml.Token

/-!
# The nodes of a YAML text

The tokens of a text make up a tree of scalars, sequences and mappings, each with a tag. An
alias stands for the node that its anchor marks; it has to come after the anchor, and no
anchor may occur twice.

A scalar without a tag is a text, unless it is plain: then what it looks like decides.

Two things are left out, and a node where one of them is met has a tag that says so. The values
of four standard tags, which are `binary`, `set`, `omap` and `pairs`, are of kinds that no
configuration has a use for; here they are taken for unknown (`DocumentFilter.Yaml.Tag.special`).
And an alias inside of the node that it stands for would make a value that holds itself; here it
stands for that node without what is in it (`DocumentFilter.Yaml.Tag.itself`).

* `DocumentFilter.Yaml.Tag.ofPlain`: what a plain scalar is;
* `DocumentFilter.Yaml.Node.ofTokens?`: the tree of a text that holds one document.
-/

namespace DocumentFilter.Yaml

/-! ### Tags -/

/-- What a node is. -/
inductive Tag
  | null
  | bool
  | int
  | float
  | timestamp
  | text
  | merge
  | default
  | sequence
  | mapping
  | unknown
  /-- A standard tag whose values are left out. -/
  | special
  /-- The mark of a collection inside of itself. -/
  | itself
deriving DecidableEq

namespace Tag

/-- The tag of a standard name. -/
def ofName (name : String) : Tag :=
  match name with
  | "null" => .null
  | "bool" => .bool
  | "int" => .int
  | "float" => .float
  | "timestamp" => .timestamp
  | "str" => .text
  | "merge" => .merge
  | "value" => .default
  | "seq" => .sequence
  | "map" => .mapping
  | "binary" => .special
  | "set" => .special
  | "omap" => .special
  | "pairs" => .special
  | _ => .unknown

/-- What comes before the standard names in a tag in full. -/
def standard : String := "tag:yaml.org,2002:"

/-- A tag in full. -/
def ofFull (tag : String) : Tag :=
  if standard.toList.isPrefixOf tag.toList then
    ofName (String.ofList (tag.toList.drop standard.length))
  else .unknown

/-- A tag as it is written, unless it is the mark of a plain scalar; none if its handle
means nothing. -/
def ofText? : TagText → Option Tag
  | .plain => some .text
  | .verbatim tag => some (ofFull tag)
  | .handled "!!" suffix => some (ofFull (standard ++ suffix))
  | .handled "!" suffix => some (ofFull ("!" ++ suffix))
  | .handled _ _ => none

/-! ### The look of plain scalars -/

/-- A digit between the given ones. -/
def isDigitTo (last : Char) (c : Char) : Bool := '0' ≤ c && c ≤ last

/-- A decimal digit. -/
def isDigit (c : Char) : Bool := isDigitTo '9' c

/-- A decimal digit or an underscore. -/
def isGrouped (c : Char) : Bool := isDigit c || c = '_'

/-- A hexadecimal digit. -/
def isHex (c : Char) : Bool := (Text.hexDigit? c).isSome

/-- One character or more, all of a class. -/
def isSome (p : Char → Bool) (cs : List Char) : Bool := !cs.isEmpty && cs.all p

/-- A scalar without a sign. -/
def dropSign : List Char → List Char
  | '-' :: rest => rest
  | '+' :: rest => rest
  | cs => cs

/-- One part or more behind colons, each a number below sixty in one or two digits; and
what follows them meets the condition. -/
def isSexagesimal (ending : List Char → Bool) : List Char → Bool
  | ':' :: a :: b :: rest =>
    if isDigitTo '5' a && isDigit b then ending rest || isSexagesimal ending rest
    else isDigit a && (ending (b :: rest) || isSexagesimal ending (b :: rest))
  | ':' :: a :: [] => isDigit a && ending []
  | _ => false

/-- A digit and after it digits and underscores, and then something that meets the
condition. -/
def isGroupedThen (ending : List Char → Bool) : List Char → Bool
  | c :: rest => isDigit c && ending (rest.dropWhile isGrouped)
  | [] => false

/-- An integer: binary, octal, hexadecimal, decimal or in parts of sixty. -/
def looksInt (cs : List Char) : Bool :=
  match dropSign cs with
  | [] => false
  | '0' :: 'b' :: ds => isSome (fun c => isDigitTo '1' c || c = '_') ds
  | '0' :: 'x' :: ds => isSome (fun c => isHex c || c = '_') ds
  | '0' :: ds => ds.all fun c => isDigitTo '7' c || c = '_'
  | ds => isGroupedThen (fun rest => rest.isEmpty || isSexagesimal List.isEmpty rest) ds

/-- Nothing, or an exponent, which has a sign. -/
def isExponent : List Char → Bool
  | [] => true
  | e :: sign :: ds => (e = 'e' || e = 'E') && (sign = '-' || sign = '+') && isSome isDigit ds
  | _ => false

/-- The part of a number from its point on. -/
def isFraction (exponent : List Char → Bool) : List Char → Bool
  | '.' :: rest => exponent (rest.dropWhile isGrouped)
  | _ => false

/-- A number with a point: decimal, in parts of sixty, infinite or none at all. -/
def looksFloat (cs : List Char) : Bool :=
  let ds := dropSign cs
  isGroupedThen (isFraction isExponent) ds ||
    isGroupedThen (isSexagesimal (isFraction List.isEmpty)) ds ||
    (match cs with
      | '.' :: rest => isGroupedThen isExponent rest
      | _ => false) ||
    [".inf".toList, ".Inf".toList, ".INF".toList].contains ds ||
    [".nan".toList, ".NaN".toList, ".NAN".toList].contains cs

/-- A truth value. -/
def looksBool (cs : List Char) : Bool :=
  ["yes", "Yes", "YES", "no", "No", "NO", "true", "True", "TRUE", "false", "False", "FALSE", "on",
    "On", "ON", "off", "Off", "OFF"].any fun word => word.toList = cs

/-- Null. -/
def looksNull (cs : List Char) : Bool :=
  ["", "~", "null", "Null", "NULL"].any fun word => word.toList = cs

/-- A timestamp; a date alone has two digits each for the month and the day. -/
def looksTimestamp (cs : List Char) : Bool :=
  match timestampText? cs with
  | some ⟨_, some _⟩ => true
  | some ⟨_, none⟩ => cs.length = 10
  | none => false

/-- **What a plain scalar is.** -/
def ofPlain (cs : List Char) : Tag :=
  if looksNull cs then .null
  else if looksBool cs then .bool
  else if looksFloat cs then .float
  else if looksInt cs then .int
  else if cs = ['<', '<'] then .merge
  else if looksTimestamp cs then .timestamp
  else if cs = ['='] then .default
  else .text

/-- What a scalar is that is marked to be read like a plain one, in quotes or not. -/
def ofMarked (cs : List Char) : Tag :=
  if cs = ['\n'] then .text else ofPlain (dropLineFeed cs)

end Tag

/-! ### Nodes -/

/-- A node. -/
inductive Node
  | scalar (tag : Tag) (text : List Char)
  | sequence (tag : Tag) (items : List Node)
  | mapping (tag : Tag) (entries : List (Node × Node))

/-- What a node is. -/
def Node.tag : Node → Tag
  | .scalar tag _ => tag
  | .sequence tag _ => tag
  | .mapping tag _ => tag

/-- An empty plain scalar. -/
def Node.empty : Node := .scalar .null []

/-- The tokens that are left and the nodes that anchors mark, a node that is not complete
without what is in it. -/
structure Pending where
  tokens : List Token
  anchors : List (List Char × Node)

/-- The tree's computations; they fail where the text is not well formed. -/
abbrev Building := StateT Pending Option

namespace Building

/-- The next token. -/
def peek : Building (Option Token) := return (← get).tokens.head?

/-- The next token is one of those given. -/
def sees (tokens : List Token) : Building Bool := do
  return (← peek).any (tokens.contains ·)

/-- Goes on by a token. -/
def skip : Building Unit := modify fun p => { p with tokens := p.tokens.tail }

/-- Goes on by the given token, if it comes next. -/
def accept (token : Token) : Building Bool := do
  if ← sees [token] then
    skip
    return true
  else return false

/-- Goes on by the given token, which must come next. -/
def require (token : Token) : Building Unit := do
  if ← accept token then pure () else failure

/-- The node that an anchor marks. -/
def lookup (name : List Char) : Building Node := do
  match (← get).anchors.lookup name with
  | some node => return node
  | none => failure

/-- Marks a node by an anchor that is new. -/
def mark (name : Option (List Char)) (node : Node) : Building Unit := do
  match name with
  | none => pure ()
  | some name =>
    if ((← get).anchors.lookup name).isSome then failure
    else modify fun p => { p with anchors := (name, node) :: p.anchors }

/-- Completes the node that an anchor marks. -/
def complete (name : Option (List Char)) (node : Node) : Building Node := do
  match name with
  | none => pure ()
  | some name => modify fun p => { p with anchors := p.anchors.map fun (other, old) =>
      if other = name then (other, node) else (other, old) }
  return node

/-- An anchor that comes next. -/
def anchor? : Building (Option (List Char)) := do
  match ← peek with
  | some (.anchor name) =>
    skip
    return some name
  | _ => return none

/-- A tag that comes next. -/
def tag? : Building (Option TagText) := do
  match ← peek with
  | some (.tag tag) =>
    skip
    return some tag
  | _ => return none

/-- The anchor and the tag of a node, in either order. -/
def properties : Building (Option (List Char) × Option TagText) := do
  match ← anchor? with
  | some name => return (some name, ← tag?)
  | none =>
    match ← tag? with
    | some tag => return (← anchor?, some tag)
    | none => return (none, none)

/-- The tag of a sequence or a mapping. -/
def tagOr (usual : Tag) : Option TagText → Building Tag
  | none => return usual
  | some .plain => return usual
  | some tag => (Tag.ofText? tag : Option Tag)

/-- The tag of a scalar. -/
def scalarTag (isPlain : Bool) (text : List Char) : Option TagText → Building Tag
  | none => return if isPlain then .ofPlain text else .text
  | some .plain => return .ofMarked text
  | some tag => (Tag.ofText? tag : Option Tag)

mutual

/-- A node. A block may be one only where `inBlock` says so, and a sequence without an
indentation of its own only where `indentless` does. -/
def node : Nat → (inBlock indentless : Bool) → Building Node
  | 0, _, _ => failure
  | fuel + 1, inBlock, indentless => do
    match ← peek with
    | some (.alias name) =>
      skip
      lookup name
    | _ =>
      let (name, tag) ← properties
      let next ← peek
      if next = some .blockEntry ∧ indentless then
        let tag ← tagOr .sequence tag
        mark name (.sequence .itself [])
        complete name (.sequence tag (← indentlessItems fuel))
      else
        match next with
        | some (.scalar isPlain text) =>
          skip
          let node := Node.scalar (← scalarTag isPlain text tag) text
          mark name node
          return node
        | some .flowSequenceStart =>
          skip
          let tag ← tagOr .sequence tag
          mark name (.sequence .itself [])
          complete name (.sequence tag (← flowItems fuel true))
        | some .flowMappingStart =>
          skip
          let tag ← tagOr .mapping tag
          mark name (.mapping .itself [])
          complete name (.mapping tag (← flowEntries fuel true))
        | some .blockSequenceStart =>
          if !inBlock then failure
          else
            skip
            let tag ← tagOr .sequence tag
            mark name (.sequence .itself [])
            complete name (.sequence tag (← blockItems fuel))
        | some .blockMappingStart =>
          if !inBlock then failure
          else
            skip
            let tag ← tagOr .mapping tag
            mark name (.mapping .itself [])
            complete name (.mapping tag (← blockEntries fuel))
        | _ =>
          if name.isNone ∧ tag.isNone then failure
          else
            let node := Node.scalar (← scalarTag true [] tag) []
            mark name node
            return node

/-- A node, or an empty one where one of the given tokens or nothing comes next. -/
def nodeUnless : Nat → List Token → (inBlock indentless : Bool) → Building Node
  | 0, _, _, _ => failure
  | fuel + 1, tokens, inBlock, indentless => do
    if ← sees tokens then return .empty else node fuel inBlock indentless

/-- The items of a block sequence, and its end. -/
def blockItems : Nat → Building (List Node)
  | 0 => failure
  | fuel + 1 => do
    if ← accept .blockEntry then
      let item ← nodeUnless fuel [.blockEntry, .blockEnd] true false
      return item :: (← blockItems fuel)
    else
      require .blockEnd
      return []

/-- The items of a sequence without an indentation of its own. -/
def indentlessItems : Nat → Building (List Node)
  | 0 => failure
  | fuel + 1 => do
    if ← accept .blockEntry then
      let item ← nodeUnless fuel [.blockEntry, .key, .value, .blockEnd] true false
      return item :: (← indentlessItems fuel)
    else return []

/-- The entries of a block mapping, and its end. -/
def blockEntries : Nat → Building (List (Node × Node))
  | 0 => failure
  | fuel + 1 => do
    if ← accept .key then
      let key ← nodeUnless fuel [.key, .value, .blockEnd] true true
      let value ← blockValue fuel
      return (key, value) :: (← blockEntries fuel)
    else
      require .blockEnd
      return []

/-- The value of an entry of a block mapping. -/
def blockValue : Nat → Building Node
  | 0 => failure
  | fuel + 1 => do
    if ← accept .value then nodeUnless fuel [.key, .value, .blockEnd] true true
    else return .empty

/-- The items of a sequence in brackets, and its end. An item that is an entry makes a
mapping of its own. -/
def flowItems : Nat → (first : Bool) → Building (List Node)
  | 0, _ => failure
  | fuel + 1, first => do
    if ← accept .flowSequenceEnd then return []
    else
      if !first then require .flowEntry
      if ← accept .key then
        let key ← nodeUnless fuel [.value, .flowEntry, .flowSequenceEnd] false false
        let value ← flowValue fuel .flowSequenceEnd
        return .mapping .mapping [(key, value)] :: (← flowItems fuel false)
      else if ← accept .flowSequenceEnd then return []
      else
        let item ← node fuel false false
        return item :: (← flowItems fuel false)

/-- The entries of a mapping in braces, and its end. -/
def flowEntries : Nat → (first : Bool) → Building (List (Node × Node))
  | 0, _ => failure
  | fuel + 1, first => do
    if ← accept .flowMappingEnd then return []
    else
      if !first then require .flowEntry
      if ← accept .key then
        let key ← nodeUnless fuel [.value, .flowEntry, .flowMappingEnd] false false
        let value ← flowValue fuel .flowMappingEnd
        return (key, value) :: (← flowEntries fuel false)
      else if ← accept .flowMappingEnd then return []
      else
        let key ← node fuel false false
        return (key, .empty) :: (← flowEntries fuel false)

/-- The value of an entry in brackets or braces. -/
def flowValue : Nat → (ending : Token) → Building Node
  | 0, _ => failure
  | fuel + 1, ending => do
    if ← accept .value then nodeUnless fuel [.flowEntry, ending] false false
    else return .empty

end

/-! ### Documents -/

/-- Goes on behind the directives in front of a document: the version of the language is
told at most once and is a version one. -/
def directives : Nat → (told : Bool) → Building Unit
  | 0, _ => failure
  | fuel + 1, told => do
    match ← peek with
    | some (.directive version) =>
      skip
      match version with
      | none => directives fuel told
      | some major => if told ∨ major ≠ 1 then failure else directives fuel true
    | _ => pure ()

/-- Goes on behind the ends of documents. -/
def documentEnds : Nat → Building Unit
  | 0 => failure
  | fuel + 1 => do
    if ← accept .documentEnd then documentEnds fuel else pure ()

/-- The text is over. -/
def atEnd : Building Bool := return (← peek).isNone

/-- A document that starts with its mark; it may be empty. -/
def markedDocument (fuel : Nat) : Building Node := do
  directives fuel false
  require .documentStart
  match ← peek with
  | none => return .empty
  | some (.directive _) => return .empty
  | some .documentStart => return .empty
  | some .documentEnd => return .empty
  | some _ => node fuel true false

/-- The document of a text that holds at most one. -/
def document (fuel : Nat) : Building (Option Node) := do
  if ← atEnd then return none
  else
    let root ← match ← peek with
      | some (.directive _) => markedDocument fuel
      | some .documentStart => markedDocument fuel
      | _ => node fuel true false
    documentEnds fuel
    if ← atEnd then return some root else failure

end Building

/-- **The tree of the tokens** of a text, which holds at most one document; the outer option
is none where they are not well formed. -/
def Node.ofTokens? (tokens : List Token) : Option (Option Node) :=
  ((Building.document (3 * tokens.length + 3)).run ⟨tokens, []⟩).map (·.1)

end DocumentFilter.Yaml
