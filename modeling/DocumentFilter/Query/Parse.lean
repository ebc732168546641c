import DocumentFilter.Query.Basic
import DocumentFilter.Text.Blank
import DocumentFilter.Text.Quoted

/-!
# Reading a path query

The grammar of a query is

    query     := segment ( "." segment | aggregate )*
    segment   := quoted
    aggregate := "|=" shape
    quoted    := a double quote, one or more characters, a double quote

where a shape is one or more quoted names in braces, separated by commas, a backslash
makes part of a name whatever character follows it, and at most one aggregate occurs. A
name that a shape repeats counts once, where it stands first.

A query is refused for its first flaw. Inside the reader the place of a flaw is the number
of characters left there; an error counts from the front.

* `DocumentFilter.Query.parse`: the steps of a text, or why it is refused;
* `DocumentFilter.Query.Error.message`: the words for a refusal.
-/

namespace DocumentFilter.Query

/-! ### What can be wrong with a query -/

/-- What a quoted name stands for. -/
inductive Role
  | keySegment
  | shapeField
deriving DecidableEq

/-- The words for a role. -/
def Role.name : Role → String
  | .keySegment => "key segment"
  | .shapeField => "shape field"

/-- A flaw in the text of a query. -/
inductive Flaw
  | markerFirst
  | nothingAfterDot
  | secondMarker
  | unexpected (found : Char)
  | braceExpected (brace : Char) (found : Option Char)
  | emptyShape
  | nameExpected (role : Role)
  | unquotedName (role : Role) (found : Char)
  | unbalancedQuote (role : Role)
  | emptyName (role : Role)
deriving DecidableEq

/-- A character as a message shows it. -/
def shownChar (c : Char) : String :=
  String.ofList (Text.quotedChars [c])

/-- The words for a flaw. -/
def Flaw.message : Flaw → String
  | .markerFirst => "aggregate marker must follow a key segment"
  | .nothingAfterDot => "expected key segment after '.'"
  | .secondMarker => "only one aggregate marker is allowed per query"
  | .unexpected found => "unexpected character " ++ shownChar found ++ ", expected '.' or '|='"
  | .braceExpected brace found =>
    "expected " ++ shownChar brace ++ ", found " ++
      (match found with
        | none => "end of query"
        | some c => shownChar c)
  | .emptyShape => "aggregate shape cannot be empty"
  | .nameExpected role => "expected " ++ role.name ++ ", found end of query"
  | .unquotedName role found => "expected quoted " ++ role.name ++ ", found " ++ shownChar found
  | .unbalancedQuote role => "unbalanced quote in " ++ role.name
  | .emptyName role => role.name ++ " cannot be empty"

/-- A flaw and the number of characters left where it is. -/
structure Stop where
  flaw : Flaw
  left : Nat

/-! ### Names -/

/-- A name from behind its opening quote, and what comes after the closing one; none when
there is no closing quote. -/
def unquote : List Char → Option (List Char × List Char)
  | [] => none
  | '"' :: rest => some ([], rest)
  | '\\' :: [] => none
  | '\\' :: c :: rest => (unquote rest).map fun (name, rest) => (c :: name, rest)
  | c :: rest => (unquote rest).map fun (name, rest) => (c :: name, rest)

/-- A quoted name at the front of a text. -/
def quotedName (role : Role) : List Char → Except Stop (List Char × List Char)
  | [] => .error ⟨.nameExpected role, 0⟩
  | '"' :: rest =>
    match unquote rest with
    | none => .error ⟨.unbalancedQuote role, rest.length + 1⟩
    | some ([], _) => .error ⟨.emptyName role, rest.length + 1⟩
    | some (name, rest) => .ok (name, rest)
  | c :: rest => .error ⟨.unquotedName role c, rest.length + 1⟩

theorem unquote_length {cs name rest : List Char} (h : unquote cs = some (name, rest)) :
    rest.length < cs.length := by
  fun_induction unquote cs generalizing name with
  | case1 => simp at h
  | case2 => simp_all
  | case3 => simp at h
  | case4 c cs ih =>
    obtain ⟨⟨name', rest'⟩, found, eq⟩ := Option.map_eq_some_iff.1 h
    cases eq
    have := ih found
    simp only [List.length_cons]
    omega
  | case5 c cs _ _ _ ih =>
    obtain ⟨⟨name', rest'⟩, found, eq⟩ := Option.map_eq_some_iff.1 h
    cases eq
    have := ih found
    simp only [List.length_cons]
    omega

/-- A quoted name takes up characters. -/
theorem quotedName_length {role : Role} {cs name rest : List Char}
    (h : quotedName role cs = .ok (name, rest)) : rest.length < cs.length := by
  unfold quotedName at h
  split at h
  · cases h
  · split at h
    · cases h
    · cases h
    · rename_i found
      cases h
      have := unquote_length found
      simp only [List.length_cons]
      omega
  · cases h

/-! ### Shapes -/

/-- Adds a name to those of a shape, unless it is there. -/
def addName (names : List String) (name : String) : List String :=
  if name ∈ names then names else names ++ [name]

/-- The names of a shape from one of them on, after those that were read. -/
def shapeNames (names : List String) (cs : List Char) :
    Except Stop (List String × List Char) :=
  match _h : quotedName .shapeField cs with
  | .error stop => .error stop
  | .ok (name, ',' :: rest) => shapeNames (addName names (String.ofList name)) rest
  | .ok (name, '\x7d' :: rest) => .ok (addName names (String.ofList name), rest)
  | .ok (_, []) => .error ⟨.braceExpected '\x7d' none, 0⟩
  | .ok (_, c :: rest) => .error ⟨.braceExpected '\x7d' (some c), rest.length + 1⟩
termination_by cs.length
decreasing_by
  have := quotedName_length _h
  simp only [List.length_cons] at this
  omega

/-- A shape, from behind the aggregate marker. -/
def shape : List Char → Except Stop (List String × List Char)
  | '\x7b' :: '\x7d' :: rest => .error ⟨.emptyShape, rest.length + 1⟩
  | '\x7b' :: rest => shapeNames [] rest
  | [] => .error ⟨.braceExpected '\x7b' none, 0⟩
  | c :: rest => .error ⟨.braceExpected '\x7b' (some c), rest.length + 1⟩

theorem shapeNames_length {names names' : List String} {cs rest : List Char}
    (h : shapeNames names cs = .ok (names', rest)) : rest.length < cs.length := by
  fun_induction shapeNames names cs with
  | case1 => simp at h
  | case2 _ _ _ _ found ih =>
    have := quotedName_length found
    have := ih h
    simp only [List.length_cons] at *
    omega
  | case3 _ _ _ _ found =>
    have := quotedName_length found
    simp only [Except.ok.injEq, Prod.mk.injEq] at h
    simp only [List.length_cons, ← h.2] at *
    omega
  | case4 => simp at h
  | case5 => simp at h

/-- A shape takes up characters. -/
theorem shape_length {names : List String} {cs rest : List Char}
    (h : shape cs = .ok (names, rest)) : rest.length < cs.length := by
  unfold shape at h
  split at h
  · cases h
  · have := shapeNames_length h
    simp only [List.length_cons]
    omega
  · cases h
  · cases h

/-! ### Queries -/

/-- The steps after the first. The flag says whether an aggregate came before. -/
def segments (aggregated : Bool) (cs : List Char) : Except Stop (List Step) :=
  match cs with
  | [] => .ok []
  | '.' :: [] => .error ⟨.nothingAfterDot, 0⟩
  | '.' :: rest =>
    match _h : quotedName .keySegment rest with
    | .error stop => .error stop
    | .ok (name, rest) =>
      (segments aggregated rest).map (.key (String.ofList name) :: ·)
  | '|' :: '=' :: rest =>
    if aggregated then .error ⟨.secondMarker, rest.length + 2⟩
    else
      match _h : shape rest with
      | .error stop => .error stop
      | .ok (names, rest) => (segments true rest).map (.aggregate names :: ·)
  | c :: rest => .error ⟨.unexpected c, rest.length + 1⟩
termination_by cs.length
decreasing_by
  · have := quotedName_length _h
    simp only [List.length_cons]
    omega
  · have := shape_length _h
    simp only [List.length_cons]
    omega

/-- The steps of a query that is not blank. -/
def readSteps : List Char → Except Stop (List Step)
  | '|' :: '=' :: rest => .error ⟨.markerFirst, rest.length + 2⟩
  | cs =>
    match quotedName .keySegment cs with
    | .error stop => .error stop
    | .ok (name, rest) => (segments false rest).map (.key (String.ofList name) :: ·)

/-- Why a query is refused. -/
inductive Error
  /-- It is a document of another kind than a text. -/
  | notText (doc : Document)
  /-- It is empty or has nothing but blanks. -/
  | blank (query : String)
  /-- It has a flaw at the given position. -/
  | malformed (flaw : Flaw) (position : Nat) (query : String)

/-- The query that an error carries. -/
def Error.query : Error → String
  | .notText _ => ""
  | .blank query => query
  | .malformed _ _ query => query

/-- The position that an error carries. -/
def Error.position? : Error → Option Nat
  | .malformed _ position _ => some position
  | _ => none

/-- The word for what a document is, where a text was expected. -/
def typeName : Document → String
  | .null => "NoneType"
  | .bool _ => "bool"
  | .number (.int _) => "int"
  | .number (.float _) => "float"
  | .string _ => "str"
  | .array _ => "list"
  | .object _ => "dict"

/-- The words for an error. -/
def Error.message : Error → String
  | .notText doc => "query must be a string, got " ++ typeName doc
  | .blank "" => "query cannot be empty"
  | .blank query => "query cannot be empty in query " ++ Text.quoted query
  | .malformed flaw position query =>
    flaw.message ++ " at position " ++ Decimal.natString position ++ " in query " ++
      Text.quoted query

/-- **Reading a path query.** -/
def parse (raw : String) : Except Error Query :=
  if raw.toList.all Text.isBlank then .error (.blank raw)
  else
    match readSteps raw.toList with
    | .ok steps => .ok ⟨raw, steps⟩
    | .error stop => .error (.malformed stop.flaw (raw.toList.length - stop.left) raw)

/-- Reading a path query where any document may stand. -/
def ofDocument : Document → Except Error Query
  | .string raw => parse raw
  | doc => .error (.notText doc)

end DocumentFilter.Query
