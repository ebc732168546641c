import DocumentFilter.Proofs.Yaml.Scalar
import DocumentFilter.Yaml.Text
import Mathlib.Data.List.TakeWhile

/-!
# The scalars of a JSON text, read as YAML

How the reader of a YAML text goes through a scalar of a JSON text. A string ends at its closing
quote. Its characters are read one by one, but for blanks, which are read together, so that the
induction goes over the steps and not over the pieces of the string.

A plain scalar has no mark at its end. It ends where something follows that cannot go on with it
(`DocumentFilter.Yaml.Closed`), and the reader then is somewhere in the spaces and the ends of lines
behind it: it takes those that it needs to see that nothing goes on. So two places are as good as
each other if nothing but spaces and ends of lines lies between them, and what comes behind these
(`DocumentFilter.Yaml.solid`) is all that is told about the place.

* `DocumentFilter.Yaml.quoted_pieces`: **a string** is read up to its closing quote;
* `DocumentFilter.Yaml.plain_word`: **a word** is read up to what closes it.
-/

namespace DocumentFilter

namespace Yaml

open Json (Piece isWordChar piecesChars)

/-! ### Places -/

namespace Cursor

variable (c : Cursor)

theorem skip_add (m n : Nat) : c.skip (m + n) = (c.skip m).skip n := by
  induction m generalizing c with
  | zero => rw [Nat.zero_add, skip]
  | succ m ih => rw [Nat.succ_add, skip, skip, ih]

theorem next_of_cons {x : Char} {rest : List Char} (shape : c.rest = x :: rest) :
    c.next.rest = rest ∧ c.next.index = c.index + 1 ∧
      c.next.line = c.line + if isBreak x then 1 else 0 := by
  obtain ⟨cs, index, line, column⟩ := c
  obtain rfl : cs = x :: rest := shape
  rw [next]
  split
  · exact ⟨rfl, rfl, rfl⟩
  · exact ⟨rfl, rfl, rfl⟩

/-- **Going on behind some characters**: what comes then, how many characters were passed, and how
many lines. -/
theorem skip_of_append {front rest : List Char} (shape : c.rest = front ++ rest) :
    (c.skip front.length).rest = rest ∧ (c.skip front.length).index = c.index + front.length ∧
      (c.skip front.length).line = c.line + front.countP isBreak := by
  induction front generalizing c with
  | nil => exact ⟨shape, rfl, rfl⟩
  | cons x front ih =>
    obtain ⟨tail, index, line⟩ := c.next_of_cons shape
    obtain ⟨rest', index', line'⟩ := ih c.next tail
    rw [List.length_cons, skip, List.countP_cons]
    exact ⟨rest', by omega, by omega⟩

variable {c}

theorem lineBreak?_of_inline {x : Char} {tail : List Char} (shape : c.rest = x :: tail)
    (inline : isBreak x = false) : c.lineBreak? = none := by
  have apart : ¬(x = '\u2028' ∨ x = '\u2029') := by
    rintro (rfl | rfl)
    · cases inline
    · cases inline
  rw [lineBreak?, peek, shape, List.head?_cons]
  simp only [apart, inline, if_false, Bool.false_eq_true]

end Cursor

/-! ### Spaces and ends of lines -/

/-- A space or a line feed: what may stand between tokens. -/
def isGap (c : Char) : Bool :=
  c = ' ' || c = '\n'

/-- A text from its first character on that may not stand between tokens. -/
def solid (cs : List Char) : List Char :=
  cs.dropWhile isGap

theorem solid_append {gap : List Char} (blank : ∀ c ∈ gap, isGap c = true) (rest : List Char) :
    solid (gap ++ rest) = solid rest :=
  List.dropWhile_append_of_pos blank

theorem solid_cons_of_isGap {c : Char} (gap : isGap c = true) (rest : List Char) :
    solid (c :: rest) = solid rest :=
  List.dropWhile_cons_of_pos gap

theorem solid_cons {c : Char} (apart : isGap c = false) (rest : List Char) :
    solid (c :: rest) = c :: rest :=
  List.dropWhile_cons_of_neg (by simp [apart])

theorem solid_solid (cs : List Char) : solid (solid cs) = solid cs := by
  induction cs with
  | nil => rfl
  | cons c cs ih =>
    by_cases gap : isGap c = true
    · rw [solid_cons_of_isGap gap, ih]
    · rw [solid_cons (by simpa using gap), solid_cons (by simpa using gap)]

/-- Spaces are passed over on the way. -/
theorem solid_dropWhile_space (cs : List Char) : solid (cs.dropWhile (· = ' ')) = solid cs := by
  induction cs with
  | nil => rfl
  | cons c cs ih =>
    rw [List.dropWhile_cons]
    split
    · rename_i space
      rw [ih, solid_cons_of_isGap]
      rw [isGap, space, Bool.true_or]
    · rfl

/-! ### Pieces of strings -/

/-- A hexadecimal digit is below sixteen, and no control character. -/
theorem hexDigit?_lt {c : Char} {d : Nat} (h : Text.hexDigit? c = some d) :
    d < 16 ∧ 0x30 ≤ c.toNat := by
  have le : ∀ a b : Char, a ≤ b ↔ a.toNat ≤ b.toNat := fun a b => by
    rw [Char.le_def, UInt32.le_iff_toNat_le]
    rfl
  have codes : '0'.toNat = 48 ∧ '9'.toNat = 57 ∧ 'a'.toNat = 97 ∧ 'f'.toNat = 102 ∧
      'A'.toNat = 65 ∧ 'F'.toNat = 70 := by decide
  obtain ⟨zero, nine, a, f, A, F⟩ := codes
  simp only [Text.hexDigit?, le, zero, nine, a, f, A, F] at h
  split at h
  · cases h
    omega
  · split at h
    · cases h
      omega
    · split at h
      · cases h
        omega
      · cases h

/-- The digits of a code, and the number that they denote. -/
theorem exists_digits_of_code (code : Json.Code) : ∃ a b c d,
    Text.hexDigit? code.w = some a ∧ Text.hexDigit? code.x = some b ∧
      Text.hexDigit? code.y = some c ∧ Text.hexDigit? code.z = some d ∧
      code.number = ((a * 16 + b) * 16 + c) * 16 + d := by
  have read := code.read
  obtain ⟨a, w, read⟩ := Option.bind_eq_some_iff.1 read
  obtain ⟨b, x, read⟩ := Option.bind_eq_some_iff.1 read
  obtain ⟨c, y, read⟩ := Option.bind_eq_some_iff.1 read
  obtain ⟨d, z, read⟩ := Option.bind_eq_some_iff.1 read
  exact ⟨a, b, c, d, w, x, y, z, (Option.some.inj read).symm⟩

/-- The text of a code has no control characters. -/
theorem visible_code (code : Json.Code) : ∀ c ∈ code.chars, 0x20 ≤ c.toNat := by
  obtain ⟨a, b, c, d, w, x, y, z, -⟩ := exists_digits_of_code code
  have digit : ∀ {c : Char} {d : Nat}, Text.hexDigit? c = some d → 0x20 ≤ c.toNat := fun h =>
    Nat.le_trans (by decide) (hexDigit?_lt h).2
  simp only [Json.Code.chars, List.forall_mem_cons, List.not_mem_nil, false_implies, implies_true,
    and_true]
  exact ⟨by decide, by decide, digit w, digit x, digit y, digit z⟩

/-- **The text of a string** has no control characters. -/
theorem visible_piece (piece : Piece) : ∀ c ∈ piece.chars, 0x20 ≤ c.toNat := by
  cases piece with
  | plain c ordinary => exact List.forall_mem_singleton.2 ordinary.2.2
  | escape letter c known =>
    refine List.forall_mem_cons.2 ⟨by decide, List.forall_mem_singleton.2 ?_⟩
    unfold Json.escape? at known
    split at known <;> first | decide | cases known
  | unicode code => exact visible_code code
  | halves high low _ => exact List.forall_mem_append.2 ⟨visible_code high, visible_code low⟩

theorem visible_piecesChars (pieces : List Piece) :
    ∀ c ∈ piecesChars pieces, 0x20 ≤ c.toNat := by
  refine List.forall_mem_append.2 ⟨fun c mem => ?_, List.forall_mem_singleton.2 (by decide)⟩
  obtain ⟨piece, -, inside⟩ := List.mem_flatMap.1 mem
  exact visible_piece piece c inside

/-- What JSON escapes by a letter means the same in YAML. -/
theorem escape?_of_json {letter c : Char} (known : Json.escape? letter = some c) :
    escape? letter = some c := by
  unfold Json.escape? at known
  split at known <;> first | exact known | cases known

/-- The character of a code is that which JSON takes it for. -/
theorem codeCharacter_code {n : Nat} (lt : n < 0x10000) :
    codeCharacter n = .ok (Json.scalar n) := by
  rw [codeCharacter, Json.scalar]
  split
  · rfl
  · rename_i whole
    have valid : n.isValidChar := by
      simp only [Text.isHalf, Bool.and_eq_true, decide_eq_true_eq] at whole
      rw [Nat.isValidChar]
      omega
    rw [if_pos valid]

section Escapes

variable {cursor : Cursor} {rest : List Char}

theorem escape_letter {letter c : Char} (known : Json.escape? letter = some c)
    (shape : cursor.rest = letter :: rest) : escape cursor = .ok ([c], cursor.skip 1) := by
  rw [escape, Cursor.peek, shape, List.head?_cons]
  simp only [escape?_of_json known]
  rfl

/-- **A code is read** as the character that it denotes. -/
theorem escape_code (code : Json.Code)
    (shape : cursor.rest = 'u' :: code.w :: code.x :: code.y :: code.z :: rest) :
    escape cursor = .ok ([Json.scalar code.number], cursor.skip 5) := by
  obtain ⟨a, b, c, d, w, x, y, z, number⟩ := exists_digits_of_code code
  have below : code.number < 0x10000 := by
    have := (hexDigit?_lt w).1
    have := (hexDigit?_lt x).1
    have := (hexDigit?_lt y).1
    have := (hexDigit?_lt z).1
    omega
  have digits : cursor.next.rest.take 4 = [code.w, code.x, code.y, code.z] := by
    rw [(cursor.next_of_cons shape).1]
    rfl
  have read : [code.w, code.x, code.y, code.z].mapM Text.hexDigit? = some [a, b, c, d] := by
    simp only [List.mapM_cons, List.mapM_nil, w, x, y, z]
    rfl
  have denotes : [a, b, c, d].foldl (fun n d => 16 * n + d) 0 = code.number := by
    simp only [List.foldl_cons, List.foldl_nil]
    omega
  have long : ¬[code.w, code.x, code.y, code.z].length < 4 := Nat.lt_irrefl 4
  have letter : escape? 'u' = none := rfl
  have width : escapeWidth? 'u' = some 4 := rfl
  rw [escape, Cursor.peek, shape, List.head?_cons]
  simp only [letter, width, digits, read]
  rw [if_neg long, denotes, codeCharacter_code below]
  rfl

end Escapes

/-! ### Strings -/

/-- A text in which no character but a line feed ends a line. -/
def Unbroken (cs : List Char) : Prop :=
  ∀ c ∈ cs, isBreak c = true → c = '\n'

theorem unbroken_append {cs ds : List Char} :
    Unbroken (cs ++ ds) ↔ Unbroken cs ∧ Unbroken ds :=
  List.forall_mem_append

/-- Within a string no line ends then. -/
theorem isBreak_eq_false {pieces : List Piece} (unbroken : Unbroken (piecesChars pieces)) {c : Char}
    (mem : c ∈ piecesChars pieces) : isBreak c = false := by
  refine Bool.eq_false_iff.2 fun ends => ?_
  obtain rfl := unbroken c mem ends
  exact absurd (visible_piecesChars pieces _ mem) (by decide)

/-- A piece that is a blank. -/
def isBlankPiece : Piece → Bool
  | .plain c _ => isBlank c
  | _ => false

/-- Pieces that are blanks stand for themselves. -/
theorem blank_pieces {pieces : List Piece} (blank : ∀ piece ∈ pieces, isBlankPiece piece = true) :
    (∀ c ∈ pieces.flatMap Piece.chars, isBlank c = true) ∧
      pieces.flatMap Piece.yaml = pieces.flatMap Piece.chars := by
  induction pieces with
  | nil => exact ⟨fun _ mem => absurd mem List.not_mem_nil, rfl⟩
  | cons piece pieces ih =>
    obtain ⟨first, others⟩ := List.forall_mem_cons.1 blank
    obtain ⟨all, same⟩ := ih others
    cases piece with
    | plain c ordinary =>
      refine ⟨List.forall_mem_cons.2 ⟨first, all⟩, ?_⟩
      rw [List.flatMap_cons, List.flatMap_cons, same]
      rfl
    | escape => cases first
    | unicode => cases first
    | halves => cases first

/-- What comes behind the blanks of a string: a character that is none. -/
theorem exists_solid_piecesChars (pieces : List Piece) : ∃ c tail,
    piecesChars (pieces.dropWhile isBlankPiece) = c :: tail ∧ isBlank c = false := by
  induction pieces with
  | nil => exact ⟨'"', [], rfl, rfl⟩
  | cons piece pieces ih =>
    rw [List.dropWhile_cons]
    split
    · exact ih
    · rename_i solid
      cases piece with
      | plain c ordinary => exact ⟨c, _, rfl, by simpa [isBlankPiece] using solid⟩
      | escape => exact ⟨'\\', _, rfl, rfl⟩
      | unicode => exact ⟨'\\', _, rfl, rfl⟩
      | halves => exact ⟨'\\', _, rfl, rfl⟩

/-- **The blanks at some place of a string** are read together. -/
theorem quotedBlanks_pieces {pieces : List Piece} (unbroken : Unbroken (piecesChars pieces))
    {rest : List Char} {c : Cursor} (shape : c.rest = piecesChars pieces ++ rest) :
    quotedBlanks c = .ok ((pieces.takeWhile isBlankPiece).flatMap Piece.yaml,
      c.skip ((pieces.takeWhile isBlankPiece).flatMap Piece.chars).length) := by
  have blank : ∀ piece ∈ pieces.takeWhile isBlankPiece, isBlankPiece piece = true :=
    fun piece mem => List.mem_takeWhile_imp mem
  obtain ⟨all, same⟩ := blank_pieces blank
  obtain ⟨x, tail, behind, solid⟩ := exists_solid_piecesChars pieces
  have split : piecesChars pieces =
      (pieces.takeWhile isBlankPiece).flatMap Piece.chars ++ x :: tail := by
    rw [← behind, piecesChars, piecesChars, ← List.append_assoc, ← List.flatMap_append,
      List.takeWhile_append_dropWhile]
  have inline : isBreak x = false :=
    isBreak_eq_false unbroken (split ▸ List.mem_append_right _ (List.mem_cons_self ..))
  rw [split, List.append_assoc, List.cons_append] at shape
  have blanks : c.rest.takeWhile isBlank = (pieces.takeWhile isBlankPiece).flatMap Piece.chars := by
    rw [shape, List.takeWhile_append_of_pos all, List.takeWhile_cons_of_neg (by simp [solid]),
      List.append_nil]
  have stops : (c.skip ((pieces.takeWhile isBlankPiece).flatMap Piece.chars).length).lineBreak? =
      none := by
    exact Cursor.lineBreak?_of_inline (c.skip_of_append shape).1 inline
  rw [quotedBlanks, Cursor.take, blanks]
  simp only [stops, same]

section Quoted

variable {rest : List Char} {fuel : Nat} {pieces others : List Piece} {c : Cursor}

/-- **A place in a string**, with these pieces left, and enough steps to read them. -/
structure InString (rest : List Char) (fuel : Nat) (pieces : List Piece) (c : Cursor) : Prop where
  unbroken : Unbroken (piecesChars pieces)
  shape : c.rest = piecesChars pieces ++ rest
  enough : (piecesChars pieces).length ≤ fuel

/-- **The string is read** from each place in it on. -/
def ReadsStrings (rest : List Char) (fuel : Nat) : Prop :=
  ∀ pieces c, InString rest fuel pieces c → quotedFrom true fuel c =
    .ok (pieces.flatMap Piece.yaml, c.skip (piecesChars pieces).length)

/-- Behind some characters, which stand for some others, the string goes on. -/
theorem InString.next (inString : InString rest (fuel + 1) pieces c)
    (reads : ReadsStrings rest fuel) {front read : List Char} (ne : front ≠ [])
    (split : piecesChars pieces = front ++ piecesChars others)
    (denotes : pieces.flatMap Piece.yaml = read ++ others.flatMap Piece.yaml) :
    (quotedFrom true fuel (c.skip front.length)).map (prepend read) =
      .ok (pieces.flatMap Piece.yaml, c.skip (piecesChars pieces).length) := by
  obtain ⟨unbroken, shape, enough⟩ := inString
  have shorter : 0 < front.length := List.length_pos_iff.2 ne
  rw [split] at unbroken
  rw [split, List.append_assoc] at shape
  rw [split, List.length_append] at enough
  have inString' : InString rest fuel others (c.skip front.length) :=
    ⟨(unbroken_append.1 unbroken).2, (c.skip_of_append shape).1, by omega⟩
  rw [reads others _ inString', denotes, split, List.length_append, Cursor.skip_add]
  rfl

/-- What comes behind the first character. -/
theorem InString.behind (inString : InString rest fuel pieces c) {x : Char} {tail : List Char}
    (first : piecesChars pieces = x :: tail) : (c.skip 1).rest = tail ++ rest := by
  have shape : c.rest = [x] ++ (tail ++ rest) := by
    rw [inString.shape, first]
    rfl
  exact (c.skip_of_append shape).1

/-- **A backslash** is read with what is escaped by it. -/
theorem InString.quotedFrom_escape (inString : InString rest (fuel + 1) pieces c)
    (reads : ReadsStrings rest fuel) (front : List Char) {x : Char}
    (split : piecesChars pieces = '\\' :: front ++ piecesChars others)
    (read : escape (c.skip 1) = .ok ([x], (c.skip 1).skip front.length))
    (denotes : pieces.flatMap Piece.yaml = [x] ++ others.flatMap Piece.yaml) :
    quotedFrom true (fuel + 1) c =
      .ok (pieces.flatMap Piece.yaml, c.skip (piecesChars pieces).length) := by
  have first : c.rest = '\\' :: (front ++ piecesChars others ++ rest) := by
    rw [inString.shape, split]
    rfl
  rw [quotedFrom, first]
  change (escape (c.skip 1)).bind _ = _
  rw [read]
  exact inString.next reads (List.cons_ne_nil '\\' front) split denotes

/-- **A character that stands for itself** is read alone, but a blank with those behind it. -/
theorem InString.quotedFrom_plain {x : Char} {ordinary : x ≠ '"' ∧ x ≠ '\\' ∧ 0x20 ≤ x.toNat}
    (inString : InString rest (fuel + 1) (.plain x ordinary :: pieces) c)
    (reads : ReadsStrings rest fuel) :
    quotedFrom true (fuel + 1) c = .ok ((Piece.plain x ordinary :: pieces).flatMap Piece.yaml,
      c.skip (piecesChars (.plain x ordinary :: pieces)).length) := by
  have inline : isBreak x = false := isBreak_eq_false inString.unbroken (List.mem_cons_self ..)
  have quote : ¬(x = '"' ∧ true = true) := fun same => ordinary.1 same.1
  have apostrophe : ¬(x = '\'' ∧ (!true) = true) := fun same => by cases same.2
  have backslash : ¬(x = '\\' ∧ true = true) := fun same => ordinary.2.1 same.1
  have first : c.rest = x :: (piecesChars pieces ++ rest) := inString.shape
  rw [quotedFrom, first]
  dsimp only
  rw [if_neg quote, if_neg apostrophe, if_neg backslash, inline, Bool.or_false]
  by_cases blank : isBlank x = true
  · rw [if_pos blank, quotedBlanks_pieces inString.unbroken inString.shape]
    have taken : (Piece.plain x ordinary :: pieces).takeWhile isBlankPiece =
        .plain x ordinary :: pieces.takeWhile isBlankPiece := List.takeWhile_cons_of_pos blank
    have split : piecesChars (Piece.plain x ordinary :: pieces) =
        ((Piece.plain x ordinary :: pieces).takeWhile isBlankPiece).flatMap Piece.chars ++
          piecesChars ((Piece.plain x ordinary :: pieces).dropWhile isBlankPiece) := by
      rw [piecesChars, piecesChars, ← List.append_assoc, ← List.flatMap_append,
        List.takeWhile_append_dropWhile]
    refine inString.next reads ?_ split ?_
    · rw [taken]
      exact List.cons_ne_nil _ _
    · rw [← List.flatMap_append, List.takeWhile_append_dropWhile]
  · rw [if_neg blank]
    exact inString.next reads (List.cons_ne_nil x []) rfl rfl

/-- **A string is read** in as many steps as it has characters, from any place in it on. -/
theorem readsStrings (rest : List Char) (fuel : Nat) : ReadsStrings rest fuel := by
  induction fuel with
  | zero =>
    intro pieces c inString
    have enough := inString.enough
    rw [piecesChars, List.length_append] at enough
    exact absurd enough (by simp)
  | succ fuel reads =>
    intro pieces c inString
    rcases pieces with _ | ⟨piece, pieces⟩
    · rw [quotedFrom, inString.shape]
      rfl
    cases piece with
    | plain x ordinary => exact inString.quotedFrom_plain reads
    | escape letter x known =>
      exact inString.quotedFrom_escape reads [letter] rfl
        (escape_letter known (inString.behind rfl)) rfl
    | unicode code =>
      exact inString.quotedFrom_escape reads ['u', code.w, code.x, code.y, code.z] rfl
        (escape_code code (inString.behind rfl)) rfl
    | halves high low pair =>
      -- the second half is read as a code of its own
      have behind : piecesChars (.halves high low pair :: pieces) =
          '\\' :: ['u', high.w, high.x, high.y, high.z] ++
            piecesChars (.unicode low :: pieces) := rfl
      exact inString.quotedFrom_escape reads _ behind
        (escape_code high (inString.behind rfl)) rfl

/-- **A string is read** up to its closing quote. -/
theorem quoted_pieces (unbroken : Unbroken (piecesChars pieces))
    (shape : c.rest = piecesChars pieces ++ rest) :
    quoted true c = .ok (pieces.flatMap Piece.yaml, c.skip (piecesChars pieces).length) := by
  refine readsStrings rest _ pieces c ⟨unbroken, shape, ?_⟩
  rw [shape, List.length_append]
  omega

end Quoted

/-! ### Words -/

/-- **What closes a plain scalar**: the end of the text or a tab, and in brackets a comma or a
bracket that closes, with spaces and ends of lines in front. -/
def Closed (flow : Bool) (rest : List Char) : Prop :=
  ∀ c tail, solid rest = c :: tail → c = '\t' ∨ flow = true ∧ c ∈ [',', ']', '\x7d']

/-- A character of a word is none of those that end or interrupt one. -/
theorem not_mem_of_isWordChar {c : Char} (word : isWordChar c = true) {others : List Char}
    (none : (others.all fun other => !isWordChar other) = true) : c ∉ others := by
  intro mem
  have := List.all_eq_true.1 none c mem
  rw [word] at this
  cases this

theorem endsWord_of_isWordChar {c : Char} (word : isWordChar c = true) :
    endsWord (some c) = false := by
  have apart : c ∉ [' ', '\t', '\n', '\r', '\u0085', '\u2028', '\u2029'] :=
    not_mem_of_isWordChar word (by decide)
  simp only [List.mem_cons, List.not_mem_nil, or_false, not_or] at apart
  simp [endsWord, isBlank, isBreak, apart]

/-- **A word goes on** up to its end, at least. -/
theorem plainWord_append {flow : Bool} {word : List Char}
    (chars : ∀ c ∈ word, isWordChar c = true) (rest : List Char) :
    plainWord flow (word ++ rest) = word ++ plainWord flow rest := by
  induction word with
  | nil => rfl
  | cons c word ih =>
    obtain ⟨first, others⟩ := List.forall_mem_cons.1 chars
    have colon : c ≠ ':' := fun same => by
      rw [same] at first
      cases first
    have mark : c ∉ [',', '?', '[', ']', '\x7b', '\x7d'] := not_mem_of_isWordChar first (by decide)
    rw [List.cons_append, plainWord, endsWord_of_isWordChar first, decide_eq_false colon,
      decide_eq_false mark, Bool.false_and, Bool.and_false, ih others]
    rfl

section Closed

variable {flow : Bool} {rest : List Char} (closed : Closed flow rest)
include closed

/-- No word goes on there. -/
theorem Closed.plainWord : plainWord flow rest = [] := by
  rcases rest with _ | ⟨c, tail⟩
  · rfl
  rw [Yaml.plainWord, if_pos]
  by_cases gap : isGap c = true
  · rw [isGap, Bool.or_eq_true, decide_eq_true_eq, decide_eq_true_eq] at gap
    rcases gap with rfl | rfl
    · rfl
    · rfl
  · rcases closed c tail (solid_cons (by simpa using gap) tail) with rfl | ⟨flow, mem⟩
    · rfl
    · have among : ∀ c ∈ [',', ']', '\x7d'], c ∈ [',', '?', '[', ']', '\x7b', '\x7d'] :=
        List.all_iff_forall_prop.1 (by decide)
      rw [flow, decide_eq_true (among c mem), Bool.true_and, Bool.or_true]

/-- No separator of documents comes there. -/
theorem Closed.seesSeparator {c : Cursor} (shape : c.rest = rest) : c.seesSeparator = false := by
  rcases rest with _ | ⟨x, tail⟩
  · rw [Cursor.seesSeparator, Cursor.seesMarker, Cursor.seesMarker, shape]
    rfl
  have apart : x ≠ '-' ∧ x ≠ '.' := by
    by_cases gap : isGap x = true
    · constructor <;> (rintro rfl; cases gap)
    · have all : ∀ x ∈ ['\t', ',', ']', '\x7d'], x ≠ '-' ∧ x ≠ '.' :=
        List.all_iff_forall_prop.1 (by decide)
      rcases closed x tail (solid_cons (by simpa using gap) tail) with rfl | ⟨-, mem⟩
      · exact all _ (List.mem_cons_self ..)
      · exact all _ (List.mem_cons_of_mem _ mem)
  simp [Cursor.seesSeparator, Cursor.seesMarker, shape, apart.1.symm, apart.2.symm]

end Closed

/-- Spaces and ends of lines at the place of a cursor: nothing, a space or a line feed. -/
theorem Closed.cases {flow : Bool} {c : Cursor} (closed : Closed flow c.rest) :
    c.sees ' ' = false ∧ c.lineBreak? = none ∨
      c.sees ' ' = true ∧ c.lineBreak? = none ∧ solid c.next.rest = solid c.rest ∨
      c.sees ' ' = false ∧ c.lineBreak? = some ('\n', c.next) ∧
        solid c.next.rest = solid c.rest := by
  rcases shape : c.rest with _ | ⟨x, tail⟩
  · left
    rw [Cursor.sees, Cursor.lineBreak?, Cursor.peek, shape]
    exact ⟨rfl, rfl⟩
  have behind := (c.next_of_cons shape).1
  have first : c.peek = some x := by rw [Cursor.peek, shape, List.head?_cons]
  by_cases gap : isGap x = true
  · right
    rw [behind, solid_cons_of_isGap gap, Cursor.sees, Cursor.lineBreak?, first]
    rw [isGap, Bool.or_eq_true, decide_eq_true_eq, decide_eq_true_eq] at gap
    rcases gap with rfl | rfl
    · exact .inl ⟨rfl, rfl, rfl⟩
    · exact .inr ⟨rfl, rfl, rfl⟩
  · left
    have all : ∀ x ∈ ['\t', ',', ']', '\x7d'], x ≠ ' ' ∧ isBreak x = false :=
      List.all_iff_forall_prop.1 (by decide)
    have mark : x ∈ ['\t', ',', ']', '\x7d'] := by
      rcases closed x tail (shape ▸ solid_cons (by simpa using gap) tail) with rfl | ⟨-, mem⟩
      · exact List.mem_cons_self ..
      · exact List.mem_cons_of_mem _ mem
    refine ⟨?_, Cursor.lineBreak?_of_inline shape (all x mark).2⟩
    rw [Cursor.sees, first]
    simpa using (all x mark).1

theorem Closed.of_solid {flow : Bool} {rest others : List Char} (closed : Closed flow rest)
    (same : solid others = solid rest) : Closed flow others := fun c tail shape =>
  closed c tail (same ▸ shape)

/-- **Behind the end of a line** the place is as good as before. -/
theorem plainBreaks_closed {flow : Bool} (fuel : Nat) {c : Cursor} (closed : Closed flow c.rest) :
    ∃ more behind, plainBreaks fuel c = (more, false, behind) ∧
      solid behind.rest = solid c.rest := by
  induction fuel generalizing c with
  | zero => exact ⟨[], c, rfl, rfl⟩
  | succ fuel ih =>
    rw [plainBreaks]
    rcases closed.cases with ⟨space, line⟩ | ⟨space, -, same⟩ | ⟨space, line, same⟩
    · rw [space, line]
      exact ⟨[], c, rfl, rfl⟩
    · rw [space, if_pos rfl, ← same]
      exact ih (closed.of_solid same)
    · have next := closed.of_solid same
      obtain ⟨more, behind, read, same'⟩ := ih next
      rw [space, line]
      simp only [next.seesSeparator rfl, read]
      exact ⟨_, behind, rfl, same'.trans same⟩

/-- **Behind a word** the place is as good as before. -/
theorem plainBlanks_closed {flow : Bool} {c : Cursor} (closed : Closed flow c.rest) :
    ∃ next broken behind, plainBlanks c = (next, broken, behind) ∧
      solid behind.rest = solid c.rest := by
  obtain ⟨after, skipped⟩ : ∃ after, c.skip (c.rest.takeWhile (· = ' ')).length = after := ⟨_, rfl⟩
  have same : solid after.rest = solid c.rest := by
    rw [← skipped, (c.skip_of_append List.takeWhile_append_dropWhile.symm).1, solid_dropWhile_space]
  have next := closed.of_solid same
  rw [plainBlanks, Cursor.take]
  dsimp only
  rw [skipped]
  rcases next.cases with ⟨-, line⟩ | ⟨-, line, -⟩ | ⟨-, line, same'⟩
  · rw [line]
    exact ⟨_, _, after, rfl, same⟩
  · rw [line]
    exact ⟨_, _, after, rfl, same⟩
  · have more := next.of_solid same'
    obtain ⟨breaks, behind, read, same''⟩ := plainBreaks_closed (after.next.rest.length + 1) more
    rw [line]
    simp only [more.seesSeparator rfl, read]
    exact ⟨_, _, behind, rfl, same''.trans (same'.trans same)⟩

/-- Where a plain scalar is closed, it does not go on. -/
theorem plainWords_closed {flow : Bool} (indent : Int) (fuel : Nat) (blanks : List Char)
    (broken : Bool) {c : Cursor} (closed : Closed flow c.rest) :
    plainWords flow indent fuel blanks broken c = ([], broken, c) := by
  cases fuel with
  | zero => rfl
  | succ fuel => rw [plainWords, closed.plainWord, if_pos (.inr rfl)]

/-- **A word is read** up to what closes it. -/
theorem plain_word {flow : Bool} (indent : Int) {word rest : List Char} {c : Cursor}
    (shape : c.rest = word ++ rest) (chars : ∀ c ∈ word, isWordChar c = true) (ne : word ≠ [])
    (closed : Closed flow rest) :
    ∃ broken behind, plain flow indent c = (word, broken, behind) ∧
      solid behind.rest = solid rest := by
  have read : plainWord flow c.rest = word := by
    rw [shape, plainWord_append chars, closed.plainWord, List.append_nil]
  have comment : ¬(c.sees '#' = true ∨ word = []) := by
    obtain ⟨x, others, rfl⟩ := List.exists_cons_of_ne_nil ne
    rintro (hash | nil)
    · rw [Cursor.sees, Cursor.peek, shape, List.cons_append, List.head?_cons, decide_eq_true_eq,
        Option.some.injEq] at hash
      cases hash ▸ chars x (List.mem_cons_self ..)
    · cases nil
  have behind := (c.skip_of_append shape).1
  obtain ⟨next, broken, after, blanks, same⟩ := plainBlanks_closed (behind.symm ▸ closed)
  rw [behind] at same
  refine ⟨broken, after, ?_, same⟩
  rw [plain, plainWords, read, if_neg comment]
  simp only [blanks, plainWords_closed indent _ _ _ (closed.of_solid same), List.nil_append,
    List.append_nil, ite_self]

end Yaml

end DocumentFilter
