import DocumentFilter.Query.Parse

/-!
# The grammar of a path query

The grammar that `DocumentFilter.Query.parse` reads, as its trees:

    query     := segment ( "." segment | aggregate )*
    segment   := quoted
    aggregate := "|=" an opening brace, quoted ( "," quoted )*, a closing brace
    quoted    := a double quote, one or more pieces, a double quote
    piece     := any character but a double quote and a backslash
               | a backslash and any character

A `DocumentFilter.Query.Derivation` is a tree of this grammar. It has a **text**, the
characters at its leaves, and a **meaning**, the steps that it denotes: a key for every
segment, an aggregate for every marker, names without their escapes and the names of a
shape without repetitions. Text and meaning are defined by the tree alone, and neither
mentions the reader.

The rest of the file inverts the reader, one function at a time: each of them succeeds
exactly on what a tree spells followed by what it leaves, with the meaning of that tree.
The one thing that is no matter of the grammar is that there is at most one aggregate.

* `DocumentFilter.Query.Derivation`: the trees, with `chars` and `steps`;
* `DocumentFilter.Query.quotedName_eq_ok_iff`, `DocumentFilter.Query.shape_eq_ok_iff`,
  `DocumentFilter.Query.segments_eq_ok_iff`: what the parts of the reader accept;
* `DocumentFilter.Query.parse_eq_ok_iff`: what the reader accepts.
-/

namespace DocumentFilter.Query

/-! ### The trees -/

/-- A piece of a quoted name: a character that stands for itself, or a backslash and the
character that it protects. -/
inductive Piece
  | plain (c : Char) (ordinary : c ≠ '"' ∧ c ≠ '\\')
  | escaped (c : Char)

/-- The character that a piece denotes. -/
def Piece.char : Piece → Char
  | .plain c _ => c
  | .escaped c => c

/-- The text of a piece. -/
def Piece.chars : Piece → List Char
  | .plain c _ => [c]
  | .escaped c => ['\\', c]

/-- A quoted name: one or more pieces between quotes. -/
structure Quoted where
  pieces : List Piece
  pieces_ne : pieces ≠ []

namespace Quoted

/-- The text of a quoted name. -/
def chars (quoted : Quoted) : List Char :=
  '"' :: quoted.pieces.flatMap Piece.chars ++ ['"']

/-- The characters of the name that it denotes. -/
def letters (quoted : Quoted) : List Char :=
  quoted.pieces.map Piece.char

/-- The name that it denotes. -/
def name (quoted : Quoted) : String :=
  String.ofList quoted.letters

/-- The text of further names, each behind a comma. -/
def commaChars : List Quoted → List Char
  | [] => []
  | quoted :: rest => ',' :: quoted.chars ++ commaChars rest

end Quoted

/-- What may follow the first segment of a query: a segment behind a dot, or an aggregate
with one or more names. -/
inductive Part
  | segment (name : Quoted)
  | aggregate (first : Quoted) (rest : List Quoted)

namespace Part

/-- An aggregate. -/
def isAggregate : Part → Bool
  | .segment _ => false
  | .aggregate _ _ => true

/-- The text of a part. -/
def chars : Part → List Char
  | .segment name => '.' :: name.chars
  | .aggregate first rest =>
    ['|', '=', '\x7b'] ++ first.chars ++ Quoted.commaChars rest ++ ['\x7d']

/-- The step that a part denotes. A name that a shape repeats counts where it stands
first. -/
def step : Part → Step
  | .segment name => .key name.name
  | .aggregate first rest => .aggregate ((first :: rest).map Quoted.name).eraseDups

end Part

/-- **A tree of the grammar**: the first segment of a query and the parts after it. -/
structure Derivation where
  first : Quoted
  rest : List Part

namespace Derivation

/-- The characters that a tree spells. -/
def chars (tree : Derivation) : List Char :=
  tree.first.chars ++ tree.rest.flatMap Part.chars

/-- The text that a tree spells. -/
def text (tree : Derivation) : String :=
  String.ofList tree.chars

/-- The number of its aggregates. -/
def aggregates (tree : Derivation) : Nat :=
  tree.rest.countP Part.isAggregate

/-- **The steps that a tree denotes**, in the order of its text. -/
def steps (tree : Derivation) : List Step :=
  .key tree.first.name :: tree.rest.map Part.step

end Derivation

/-! ### Names -/

/-- Behind its opening quote, a name is read from the pieces that spell it. -/
theorem unquote_pieces (pieces : List Piece) (rest : List Char) :
    unquote (pieces.flatMap Piece.chars ++ '"' :: rest) =
      some (pieces.map Piece.char, rest) := by
  induction pieces with
  | nil => rfl
  | cons piece pieces ih =>
    cases piece with
    | plain c ordinary => simp [Piece.chars, Piece.char, unquote, ordinary, ih]
    | escaped c => simp [Piece.chars, Piece.char, unquote, ih]

/-- What is read behind an opening quote is spelt by pieces. -/
theorem exists_pieces_of_unquote {cs name rest : List Char}
    (h : unquote cs = some (name, rest)) :
    ∃ pieces : List Piece,
      cs = pieces.flatMap Piece.chars ++ '"' :: rest ∧ name = pieces.map Piece.char := by
  fun_induction unquote cs generalizing name with
  | case1 => simp at h
  | case2 rest' =>
    cases h
    exact ⟨[], rfl, rfl⟩
  | case3 => simp at h
  | case4 c cs ih =>
    obtain ⟨⟨name', rest'⟩, found, eq⟩ := Option.map_eq_some_iff.1 h
    cases eq
    obtain ⟨pieces, rfl, rfl⟩ := ih found
    exact ⟨.escaped c :: pieces, rfl, rfl⟩
  | case5 c cs not_quote lone not_escape ih =>
    -- A backslash is read together with the character behind it, so `c` is none.
    have ordinary : c ≠ '"' ∧ c ≠ '\\' := by
      refine ⟨not_quote, fun hc => ?_⟩
      cases cs with
      | nil => exact lone hc rfl
      | cons next cs => exact not_escape next cs hc rfl
    obtain ⟨⟨name', rest'⟩, found, eq⟩ := Option.map_eq_some_iff.1 h
    cases eq
    obtain ⟨pieces, rfl, rfl⟩ := ih found
    exact ⟨.plain c ordinary :: pieces, rfl, rfl⟩

/-- A tree of a name is read back, whatever follows its text. -/
theorem quotedName_chars (role : Role) (quoted : Quoted) (rest : List Char) :
    quotedName role (quoted.chars ++ rest) = .ok (quoted.letters, rest) := by
  obtain ⟨pieces, ne⟩ := quoted
  obtain ⟨piece, pieces, rfl⟩ := List.exists_cons_of_ne_nil ne
  have found := unquote_pieces (piece :: pieces) rest
  simp only [Quoted.chars, Quoted.letters, List.cons_append, List.append_assoc, quotedName,
    List.nil_append, found, List.map_cons]

/-- **A quoted name is read** from what spells one, and from nothing else. -/
theorem quotedName_eq_ok_iff {role : Role} {cs name rest : List Char} :
    quotedName role cs = .ok (name, rest) ↔
      ∃ quoted : Quoted, cs = quoted.chars ++ rest ∧ name = quoted.letters := by
  constructor
  · intro h
    unfold quotedName at h
    split at h
    · cases h
    · split at h
      · cases h
      · cases h
      · rename_i nonempty found
        cases h
        obtain ⟨pieces, rfl, rfl⟩ := exists_pieces_of_unquote found
        have ne : pieces ≠ [] := fun hp => nonempty (by simp [hp])
        exact ⟨⟨pieces, ne⟩, by simp [Quoted.chars], rfl⟩
    · cases h
  · rintro ⟨quoted, rfl, rfl⟩
    exact quotedName_chars role quoted rest

/-! ### Shapes -/

/-- Names are added to a shape in the order of their first occurrences. -/
theorem foldl_addName (names read : List String) :
    names.foldl addName read = read ++ (names.removeAll read).eraseDups := by
  induction names generalizing read with
  | nil => simp
  | cons name names ih =>
    rw [List.foldl_cons, ih, List.cons_removeAll]
    by_cases known : name ∈ read
    · simp [addName, known]
    · -- Whether a later name is passed over for `name` or for one of `read` is the same.
      have later : names.removeAll (read ++ [name]) =
          (names.removeAll read).filter fun other => !other == name := by
        simp only [List.removeAll, List.filter_filter]
        refine List.filter_congr fun other _ => ?_
        rw [Bool.eq_iff_iff]
        simp [and_comm]
      simp [addName, known, List.eraseDups_cons, later]

/-- The names of a shape are those read, without their repetitions. -/
theorem foldl_addName_nil (names : List String) : names.foldl addName [] = names.eraseDups := by
  rw [foldl_addName, List.removeAll_nil, List.nil_append]

/-- The last name of a shape. -/
theorem shapeNames_brace (read : List String) (name : Quoted) (rest : List Char) :
    shapeNames read (name.chars ++ '\x7d' :: rest) = .ok (addName read name.name, rest) := by
  have found := quotedName_chars .shapeField name ('\x7d' :: rest)
  rw [shapeNames]
  split <;> simp_all [Quoted.name]

/-- A name of a shape with others to come. -/
theorem shapeNames_comma (read : List String) (name : Quoted) (cs : List Char) :
    shapeNames read (name.chars ++ ',' :: cs) = shapeNames (addName read name.name) cs := by
  have found := quotedName_chars .shapeField name (',' :: cs)
  rw [shapeNames]
  split <;> simp_all [Quoted.name]

/-- The names of a shape are read from names behind commas and a closing brace. -/
theorem shapeNames_eq_ok_iff {read names : List String} {cs rest : List Char} :
    shapeNames read cs = .ok (names, rest) ↔
      ∃ (first : Quoted) (more : List Quoted),
        cs = first.chars ++ Quoted.commaChars more ++ '\x7d' :: rest ∧
          names = ((first :: more).map Quoted.name).foldl addName read := by
  constructor
  · intro h
    fun_induction shapeNames read cs with
    | case1 => simp at h
    | case2 read cs name rest' found ih =>
      obtain ⟨first, rfl, rfl⟩ := quotedName_eq_ok_iff.1 found
      obtain ⟨second, more, rfl, rfl⟩ := ih h
      exact ⟨first, second :: more, by simp [Quoted.commaChars], rfl⟩
    | case3 read cs name rest' found =>
      obtain ⟨first, rfl, rfl⟩ := quotedName_eq_ok_iff.1 found
      cases h
      exact ⟨first, [], by simp [Quoted.commaChars], rfl⟩
    | case4 => simp at h
    | case5 => simp at h
  · rintro ⟨first, more, rfl, rfl⟩
    induction more generalizing first read with
    | nil => simpa [Quoted.commaChars] using shapeNames_brace read first rest
    | cons second more ih =>
      have step := shapeNames_comma read first
        (second.chars ++ Quoted.commaChars more ++ '\x7d' :: rest)
      have spelt : first.chars ++ Quoted.commaChars (second :: more) ++ '\x7d' :: rest =
          first.chars ++ ',' :: (second.chars ++ Quoted.commaChars more ++ '\x7d' :: rest) := by
        simp [Quoted.commaChars]
      rw [spelt, step, ih]
      rfl

/-- **A shape is read** from one or more names in braces, and its names are those without
their repetitions. -/
theorem shape_eq_ok_iff {names : List String} {cs rest : List Char} :
    shape cs = .ok (names, rest) ↔
      ∃ (first : Quoted) (more : List Quoted),
        cs = '\x7b' :: first.chars ++ Quoted.commaChars more ++ '\x7d' :: rest ∧
          names = ((first :: more).map Quoted.name).eraseDups := by
  constructor
  · intro h
    unfold shape at h
    split at h
    · cases h
    · obtain ⟨first, more, rfl, rfl⟩ := shapeNames_eq_ok_iff.1 h
      exact ⟨first, more, by simp, foldl_addName_nil _⟩
    · cases h
    · cases h
  · rintro ⟨first, more, rfl, rfl⟩
    have found : shapeNames [] (first.chars ++ Quoted.commaChars more ++ '\x7d' :: rest) =
        .ok (((first :: more).map Quoted.name).eraseDups, rest) :=
      shapeNames_eq_ok_iff.2 ⟨first, more, rfl, (foldl_addName_nil _).symm⟩
    -- A name starts with a quote, so the brace is not closed at once.
    simpa [shape, Quoted.chars] using found

/-! ### Queries -/

/-- A rewritten result comes from a result. -/
theorem map_eq_ok_iff {ε α β : Type} {f : α → β} {x : Except ε α} {b : β} :
    x.map f = .ok b ↔ ∃ a, x = .ok a ∧ f a = b := by
  cases x <;> simp [Except.map]

/-- The number of aggregates that may still come. -/
def aggregatesLeft (aggregated : Bool) : Nat :=
  if aggregated then 0 else 1

/-- A segment behind a dot is read as a key. -/
theorem segments_segment (aggregated : Bool) (name : Quoted) (cs : List Char) :
    segments aggregated ((Part.segment name).chars ++ cs) =
      (segments aggregated cs).map ((Part.segment name).step :: ·) := by
  have found := quotedName_chars .keySegment name cs
  have more : name.chars ++ cs ≠ [] := by simp [Quoted.chars]
  rw [Part.chars, List.cons_append, segments]
  · split <;> simp_all [Part.step, Quoted.name]
  · exact more

/-- An aggregate is read as such where none came before. -/
theorem segments_aggregate (first : Quoted) (more : List Quoted) (cs : List Char) :
    segments false ((Part.aggregate first more).chars ++ cs) =
      (segments true cs).map ((Part.aggregate first more).step :: ·) := by
  have found : shape ('\x7b' :: first.chars ++ Quoted.commaChars more ++ '\x7d' :: cs) =
      .ok (((first :: more).map Quoted.name).eraseDups, cs) :=
    shape_eq_ok_iff.2 ⟨first, more, rfl, rfl⟩
  have spelt : (Part.aggregate first more).chars ++ cs =
      '|' :: '=' :: ('\x7b' :: first.chars ++ Quoted.commaChars more ++ '\x7d' :: cs) := by
    simp [Part.chars]
  rw [spelt, segments, if_neg Bool.false_ne_true]
  split <;> simp_all [Part.step]

/-- The steps after the first are read from parts with no more aggregates than may still
come. -/
theorem segments_eq_ok_iff {aggregated : Bool} {cs : List Char} {steps : List Step} :
    segments aggregated cs = .ok steps ↔
      ∃ parts : List Part,
        cs = parts.flatMap Part.chars ∧ steps = parts.map Part.step ∧
          parts.countP Part.isAggregate ≤ aggregatesLeft aggregated := by
  constructor
  · intro h
    fun_induction segments aggregated cs generalizing steps with
    | case1 =>
      cases h
      exact ⟨[], rfl, rfl, Nat.zero_le _⟩
    | case2 => cases h
    | case3 => cases h
    | case4 aggregated cs _ name rest found ih =>
      obtain ⟨first, rfl, rfl⟩ := quotedName_eq_ok_iff.1 found
      obtain ⟨steps, read, rfl⟩ := map_eq_ok_iff.1 h
      obtain ⟨parts, rfl, rfl, few⟩ := ih read
      exact ⟨.segment first :: parts, rfl, rfl, by
        rwa [List.countP_cons_of_neg Bool.false_ne_true]⟩
    | case5 => cases h
    | case6 => cases h
    | case7 aggregated cs not_yet names rest found ih =>
      -- The parts after this one were read with no aggregate to come, so there is one in all.
      obtain ⟨first, more, rfl, rfl⟩ := shape_eq_ok_iff.1 found
      obtain ⟨steps, read, rfl⟩ := map_eq_ok_iff.1 h
      obtain ⟨parts, rfl, rfl, few⟩ := ih read
      refine ⟨.aggregate first more :: parts, by simp [Part.chars], rfl, ?_⟩
      rw [List.countP_cons_of_pos rfl, aggregatesLeft, if_neg not_yet]
      exact Nat.succ_le_succ few
    | case8 => cases h
  · rintro ⟨parts, rfl, rfl, few⟩
    induction parts generalizing aggregated with
    | nil => simp [segments]
    | cons part parts ih =>
      rw [List.flatMap_cons]
      cases part with
      | segment name =>
        rw [List.countP_cons_of_neg Bool.false_ne_true] at few
        rw [segments_segment, ih few]
        rfl
      | aggregate first more =>
        -- The bound leaves room for this aggregate only, so none came before and none comes.
        rw [List.countP_cons_of_pos rfl] at few
        cases aggregated with
        | true => exact absurd few (Nat.not_succ_le_zero _)
        | false =>
          have none_left : parts.countP Part.isAggregate ≤ aggregatesLeft true :=
            Nat.le_of_succ_le_succ few
          rw [segments_aggregate, ih none_left]
          rfl

/-- **The steps of a query are read** from a tree of the grammar with at most one
aggregate. -/
theorem readSteps_eq_ok_iff {cs : List Char} {steps : List Step} :
    readSteps cs = .ok steps ↔
      ∃ tree : Derivation, cs = tree.chars ∧ tree.aggregates ≤ 1 ∧ steps = tree.steps := by
  constructor
  · intro h
    unfold readSteps at h
    split at h
    · cases h
    · split at h
      · cases h
      · rename_i name rest found
        obtain ⟨first, rfl, rfl⟩ := quotedName_eq_ok_iff.1 found
        obtain ⟨steps, read, rfl⟩ := map_eq_ok_iff.1 h
        obtain ⟨parts, rfl, rfl, few⟩ := segments_eq_ok_iff.1 read
        exact ⟨⟨first, parts⟩, rfl, few, rfl⟩
  · rintro ⟨⟨first, parts⟩, rfl, few, rfl⟩
    have found := quotedName_chars .keySegment first (parts.flatMap Part.chars)
    have read : segments false (parts.flatMap Part.chars) = .ok (parts.map Part.step) :=
      segments_eq_ok_iff.2 ⟨parts, rfl, rfl, few⟩
    unfold readSteps
    split
    · -- A segment starts with a quote, so no marker stands in front.
      rename_i marker
      simp [Derivation.chars, Quoted.chars] at marker
    · simp only [Derivation.chars, found, read]
      rfl

/-- A text that spells a tree is not blank, since it starts with a quote. -/
theorem not_blank_chars (tree : Derivation) : tree.chars.all Text.isBlank = false := by
  have quote : Text.isBlank '"' = false := by decide
  simp [Derivation.chars, Quoted.chars, quote]

/-- A tree spells a text if it spells its characters. -/
theorem Derivation.text_eq_iff {tree : Derivation} {raw : String} :
    tree.text = raw ↔ raw.toList = tree.chars := by
  constructor
  · rintro rfl
    exact String.toList_ofList
  · intro h
    rw [text, ← h, String.ofList_toList]

/-- **A query is read** from a tree of the grammar with at most one aggregate. The test for
blank texts, which is made first, refuses nothing that could be read. -/
theorem parse_eq_ok_iff {raw : String} {query : Query} :
    parse raw = .ok query ↔
      ∃ tree : Derivation,
        tree.text = raw ∧ tree.aggregates ≤ 1 ∧ query = ⟨raw, tree.steps⟩ := by
  constructor
  · intro h
    unfold parse at h
    split at h
    · cases h
    · split at h
      · rename_i steps read
        cases h
        obtain ⟨tree, spelt, few, rfl⟩ := readSteps_eq_ok_iff.1 read
        exact ⟨tree, Derivation.text_eq_iff.2 spelt, few, rfl⟩
      · cases h
  · rintro ⟨tree, spelt, few, rfl⟩
    rw [Derivation.text_eq_iff] at spelt
    have blank : raw.toList.all Text.isBlank = false := spelt ▸ not_blank_chars tree
    have read : readSteps raw.toList = .ok tree.steps :=
      readSteps_eq_ok_iff.2 ⟨tree, spelt, few, rfl⟩
    simp only [parse, blank, read]
    rfl

/-- The error for a text carries that text. -/
theorem query_of_parse_eq_error {raw : String} {error : Error} (h : parse raw = .error error) :
    error.query = raw := by
  unfold parse at h
  split at h
  · cases h
    rfl
  · split at h
    · cases h
    · cases h
      rfl

/-- **The texts that are queries are those that the grammar derives** with at most one
aggregate. A text is read as what its trees denote, so all of them denote the same; every
other text is refused, with an error that carries it. -/
theorem parse_iff_derivation (raw : String) :
    (∀ query, parse raw = .ok query ↔
      ∃ tree : Derivation,
        tree.text = raw ∧ tree.aggregates ≤ 1 ∧ query = ⟨raw, tree.steps⟩) ∧
    ((∃ error, parse raw = .error error ∧ error.query = raw) ↔
      ¬∃ tree : Derivation, tree.text = raw ∧ tree.aggregates ≤ 1) := by
  refine ⟨fun query => parse_eq_ok_iff, ?_, ?_⟩
  · rintro ⟨error, refused, -⟩ ⟨tree, spelt, few⟩
    have read := parse_eq_ok_iff.2 ⟨tree, spelt, few, rfl⟩
    rw [refused] at read
    cases read
  · intro underivable
    cases outcome : parse raw with
    | error error => exact ⟨error, rfl, query_of_parse_eq_error outcome⟩
    | ok query =>
      obtain ⟨tree, spelt, few, -⟩ := parse_eq_ok_iff.1 outcome
      exact absurd ⟨tree, spelt, few⟩ underivable

end DocumentFilter.Query
