import DocumentFilter.Proofs.Query.Grammar
import Mathlib.Logic.ExistsUnique
import Mathlib.Order.Bounds.Basic

/-!
# Where a query is refused

A text that is no query is refused at one place. Which place that is can be said without the
reader. Split the text from the left into **tokens**, quoted names and the marks of punctuation,
as far as it goes. Behind some of the tokens what was read so far can still be the beginning of a
query, and the last such place is the one that the error names.

The tokens are a prefix code, so there is one split. To say which rows of tokens begin a query, the
grammar is read as an automaton over tokens with five phases
(`DocumentFilter.Query.Phase.next`), each with the set of texts that complete a query from there
(`DocumentFilter.Query.Phase.Completes`). The automaton is exact: a text that starts with a token
completes a query exactly if the token leads on and the rest completes it from there
(`DocumentFilter.Query.Phase.completes_token_iff`). No phase is a dead end, hence the rows that run
through are the beginnings of queries.

The reader is then followed through its functions, each of which stops in some phase before a text
that starts with no token that would lead on.

* `DocumentFilter.Query.Splits`, `DocumentFilter.Query.IsBeginning`: tokens and beginnings;
* `DocumentFilter.Query.isBeginning_iff`: the automaton runs through the beginnings of queries;
* `DocumentFilter.Query.Phase.stops_readSteps`: where the reader stops;
* `DocumentFilter.Query.position_of_parse`: **the position of an error**.
-/

namespace DocumentFilter.Query

/-! ### Tokens -/

/-- A piece of a name can be told from what follows it. -/
theorem Piece.append_inj {piece other : Piece} {rest more : List Char}
    (same : piece.chars ++ rest = other.chars ++ more) : piece = other ∧ rest = more := by
  cases piece with
  | plain c ordinary => cases other <;> simp_all [chars]
  | escaped c =>
    cases other with
    | plain other ordinary => exact absurd (List.cons.inj same).1.symm ordinary.2
    | escaped other => simpa [chars] using same

/-- No piece starts with a quote. -/
theorem Piece.chars_append_ne_quote (piece : Piece) {rest more : List Char} :
    piece.chars ++ rest ≠ '"' :: more := by
  cases piece <;> simp_all [chars]

/-- A complete token: a quoted name, which may be empty, or a mark. -/
inductive Token
  | name (pieces : List Piece)
  | dot
  | marker
  | opening
  | comma
  | closing

namespace Token

/-- The text of a token. -/
def chars : Token → List Char
  | .name pieces => '"' :: pieces.flatMap Piece.chars ++ ['"']
  | .dot => ['.']
  | .marker => ['|', '=']
  | .opening => ['\x7b']
  | .comma => [',']
  | .closing => ['\x7d']

/-- The text of tokens in a row. -/
def spell (tokens : List Token) : List Char :=
  tokens.flatMap chars

@[simp] theorem spell_cons (token : Token) (tokens : List Token) :
    spell (token :: tokens) = token.chars ++ spell tokens := rfl

@[simp] theorem spell_append (tokens more : List Token) :
    spell (tokens ++ more) = spell tokens ++ spell more :=
  List.flatMap_append

theorem chars_ne_nil (token : Token) : token.chars ≠ [] := by
  cases token <;> simp [chars]

/-- The pieces of a name end at the first quote that none of them protects. -/
theorem pieces_inj {pieces others : List Piece} {rest more : List Char}
    (same : pieces.flatMap Piece.chars ++ '"' :: rest =
      others.flatMap Piece.chars ++ '"' :: more) : pieces = others ∧ rest = more := by
  induction pieces generalizing others with
  | nil =>
    cases others with
    | nil => exact ⟨rfl, (List.cons.inj same).2⟩
    | cons other others =>
      rw [List.flatMap_cons, List.append_assoc] at same
      exact absurd same.symm other.chars_append_ne_quote
  | cons piece pieces ih =>
    rw [List.flatMap_cons, List.append_assoc] at same
    cases others with
    | nil => exact absurd same piece.chars_append_ne_quote
    | cons other others =>
      rw [List.flatMap_cons, List.append_assoc] at same
      obtain ⟨rfl, behind⟩ := Piece.append_inj same
      obtain ⟨rfl, rfl⟩ := ih behind
      exact ⟨rfl, rfl⟩

/-- **The tokens are a prefix code**: a text starts with one of them at most. -/
theorem append_inj {token other : Token} {rest more : List Char}
    (same : token.chars ++ rest = other.chars ++ more) : token = other ∧ rest = more := by
  cases token with
  | name pieces =>
    cases other with
    | name others =>
      have quoted : pieces.flatMap Piece.chars ++ '"' :: rest =
          others.flatMap Piece.chars ++ '"' :: more := by simpa [chars] using same
      obtain ⟨rfl, rfl⟩ := pieces_inj quoted
      exact ⟨rfl, rfl⟩
    | _ => simp [chars] at same
  | _ => cases other <;> simp_all [chars]

/-- Of two rows of tokens at the front of a text one begins with the other. -/
theorem comparable {tokens others : List Token} {rest more : List Char}
    (same : spell tokens ++ rest = spell others ++ more) :
    tokens <+: others ∨ others <+: tokens := by
  induction tokens generalizing others with
  | nil => exact .inl (List.nil_prefix ..)
  | cons token tokens ih =>
    cases others with
    | nil => exact .inr (List.nil_prefix ..)
    | cons other others =>
      rw [spell_cons, spell_cons, List.append_assoc, List.append_assoc] at same
      obtain ⟨rfl, behind⟩ := append_inj same
      simpa only [List.cons_prefix_cons, true_and] using ih behind

end Token

open Token (spell)

/-- **The split of a text into tokens** from the left, up to a rest that starts with no complete
token. -/
structure Splits (cs : List Char) (tokens : List Token) (rest : List Char) : Prop where
  spelt : cs = spell tokens ++ rest
  stuck : ∀ token : Token, ¬token.chars <+: rest

theorem exists_splits (cs : List Char) : ∃ tokens rest, Splits cs tokens rest := by
  induction length : cs.length using Nat.strongRecOn generalizing cs with
  | _ n ih =>
    by_cases starts : ∃ token : Token, token.chars <+: cs
    · obtain ⟨token, more, rfl⟩ := starts
      have shorter : more.length < n := by
        have := List.length_pos_iff.2 token.chars_ne_nil
        rw [List.length_append] at length
        omega
      obtain ⟨tokens, rest, spelt, stuck⟩ := ih _ shorter more rfl
      exact ⟨token :: tokens, rest, by simp [spelt], stuck⟩
    · exact ⟨[], cs, rfl, fun token starts' => starts ⟨token, starts'⟩⟩

/-- No row of tokens goes on where the split stops. -/
theorem Splits.eq_nil {cs : List Char} {tokens further : List Token} {rest more : List Char}
    (splits : Splits cs tokens rest) (spelt : cs = spell (tokens ++ further) ++ more) :
    further = [] := by
  cases further with
  | nil => rfl
  | cons token further =>
    have behind : rest = token.chars ++ (spell further ++ more) := by
      simpa [splits.spelt] using spelt
    exact absurd ⟨_, behind.symm⟩ (splits.stuck token)

/-- **There is one split** of a text. -/
theorem existsUnique_splits (cs : List Char) :
    ∃! split : List Token × List Char, Splits cs split.1 split.2 := by
  obtain ⟨tokens, rest, splits⟩ := exists_splits cs
  refine ⟨(tokens, rest), splits, fun ⟨others, more⟩ splits' => ?_⟩
  have same : spell others ++ more = spell tokens ++ rest := splits'.spelt.symm.trans splits.spelt
  rcases Token.comparable same with ⟨further, rfl⟩ | ⟨further, rfl⟩
  · obtain rfl := splits'.eq_nil splits.spelt
    simpa using same
  · obtain rfl := splits.eq_nil splits'.spelt
    simpa using same

/-- A boundary of the split: the number of characters in the first of its tokens. -/
def IsBoundary (cs : List Char) (n : Nat) : Prop :=
  ∃ tokens more rest, Splits cs (tokens ++ more) rest ∧ n = (spell tokens).length

/-! ### Beginnings -/

/-- **The beginning of a query**: a text that something can be put behind so that it is read. -/
def IsBeginning (cs : List Char) : Prop :=
  ∃ rest query, parse (String.ofList (cs ++ rest)) = .ok query

theorem IsBeginning.of_prefix {cs front : List Char} (h : IsBeginning cs) (shorter : front <+: cs) :
    IsBeginning front := by
  obtain ⟨rest, query, read⟩ := h
  obtain ⟨more, rfl⟩ := shorter
  exact ⟨more ++ rest, query, by rwa [← List.append_assoc]⟩

/-- The token of a quoted name. -/
def Quoted.token (name : Quoted) : Token :=
  .name name.pieces

/-- A name is told from what follows it like every token. -/
theorem Quoted.token_of_chars {name : Quoted} {token : Token} {cs rest : List Char}
    (spelt : token.chars ++ cs = name.chars ++ rest) : token = name.token ∧ cs = rest :=
  Token.append_inj (show token.chars ++ cs = name.token.chars ++ rest from spelt)

/-- Where a row of tokens stands in a query. -/
inductive Phase
  /-- A segment has to follow. -/
  | segment (aggregated : Bool)
  /-- A segment or an aggregate is complete, and the query may end. -/
  | part (aggregated : Bool)
  /-- The braces of an aggregate have to follow. -/
  | braces
  /-- A name of a shape has to follow. -/
  | member
  /-- A name of a shape is complete. -/
  | members

namespace Phase

/-- The phase behind a token, unless the token cannot follow. -/
def next : Phase → Token → Option Phase
  | .segment aggregated, .name (_ :: _) => some (.part aggregated)
  | .part aggregated, .dot => some (.segment aggregated)
  | .part false, .marker => some .braces
  | .braces, .opening => some .member
  | .member, .name (_ :: _) => some .members
  | .members, .comma => some .member
  | .members, .closing => some (.part true)
  | _, _ => none

/-- The phase behind a row of tokens. -/
def run (phase : Phase) : List Token → Option Phase
  | [] => some phase
  | token :: tokens => (phase.next token).bind (·.run tokens)

/-- Parts with no more aggregates than may still come. -/
def Parts (aggregated : Bool) (cs : List Char) : Prop :=
  ∃ parts : List Part,
    cs = parts.flatMap Part.chars ∧ parts.countP Part.isAggregate ≤ aggregatesLeft aggregated

/-- Further names of a shape, its end, and parts without an aggregate. -/
def Names (cs : List Char) : Prop :=
  ∃ (more : List Quoted) (rest : List Char),
    cs = Quoted.commaChars more ++ '\x7d' :: rest ∧ Parts true rest

/-- **The texts that complete a query** from a phase on. -/
def Completes : Phase → List Char → Prop
  | .segment aggregated, cs =>
    ∃ (name : Quoted) (rest : List Char), cs = name.chars ++ rest ∧ Parts aggregated rest
  | .part aggregated, cs => Parts aggregated cs
  | .braces, cs =>
    ∃ (name : Quoted) (rest : List Char), cs = '\x7b' :: name.chars ++ rest ∧ Names rest
  | .member, cs => ∃ (name : Quoted) (rest : List Char), cs = name.chars ++ rest ∧ Names rest
  | .members, cs => Names cs

/-- Parts start with a dot and a segment or with a marker and an aggregate, unless there are
none. -/
theorem parts_token {aggregated : Bool} {token : Token} {cs : List Char}
    (parts : Parts aggregated (token.chars ++ cs)) :
    ∃ behind, (Phase.part aggregated).next token = some behind ∧ behind.Completes cs := by
  obtain ⟨parts, spelt, few⟩ := parts
  cases parts with
  | nil => exact absurd (List.append_eq_nil_iff.1 spelt).1 token.chars_ne_nil
  | cons part parts =>
    cases part with
    | segment name =>
      have dot : token.chars ++ cs = Token.dot.chars ++ (name.chars ++ parts.flatMap Part.chars) :=
        spelt
      obtain ⟨rfl, rfl⟩ := Token.append_inj dot
      exact ⟨_, rfl, name, _, rfl, parts, rfl, few⟩
    | aggregate first more =>
      have marker : token.chars ++ cs = Token.marker.chars ++ ('\x7b' :: first.chars ++
          (Quoted.commaChars more ++ '\x7d' :: parts.flatMap Part.chars)) := by
        simpa [Part.chars, Token.chars] using spelt
      obtain ⟨rfl, rfl⟩ := Token.append_inj marker
      rw [List.countP_cons_of_pos rfl] at few
      cases aggregated with
      | true => exact absurd few (Nat.not_succ_le_zero _)
      | false =>
        exact ⟨_, rfl, first, _, rfl, more, _, rfl, parts, rfl, Nat.le_of_succ_le_succ few⟩

/-- Further names start with a comma and a name or with the closing brace. -/
theorem names_token {token : Token} {cs : List Char} (names : Names (token.chars ++ cs)) :
    ∃ behind, Phase.members.next token = some behind ∧ behind.Completes cs := by
  obtain ⟨more, rest, spelt, parts⟩ := names
  cases more with
  | nil =>
    have closing : token.chars ++ cs = Token.closing.chars ++ rest := spelt
    obtain ⟨rfl, rfl⟩ := Token.append_inj closing
    exact ⟨_, rfl, parts⟩
  | cons name more =>
    have comma : token.chars ++ cs = Token.comma.chars ++
        (name.chars ++ (Quoted.commaChars more ++ '\x7d' :: rest)) := by
      simpa [Quoted.commaChars, Token.chars] using spelt
    obtain ⟨rfl, rfl⟩ := Token.append_inj comma
    exact ⟨_, rfl, name, _, rfl, more, rest, rfl, parts⟩

/-- A name that is not empty can follow where one has to. -/
theorem next_name (name : Quoted) :
    (∀ aggregated, (Phase.segment aggregated).next name.token = some (.part aggregated)) ∧
      Phase.member.next name.token = some .members := by
  obtain ⟨pieces, ne⟩ := name
  obtain ⟨piece, pieces, rfl⟩ := List.exists_cons_of_ne_nil ne
  exact ⟨fun _ => rfl, rfl⟩

/-- **A text that starts with a token completes a query** from a phase exactly if the token can
follow there and the rest completes the query behind it. -/
theorem completes_token_iff {phase : Phase} {token : Token} {cs : List Char} :
    phase.Completes (token.chars ++ cs) ↔
      ∃ behind, phase.next token = some behind ∧ behind.Completes cs := by
  constructor
  · intro completes
    cases phase with
    | segment aggregated =>
      obtain ⟨name, rest, spelt, parts⟩ := completes
      obtain ⟨rfl, rfl⟩ := Quoted.token_of_chars spelt
      exact ⟨_, (next_name name).1 aggregated, parts⟩
    | part aggregated => exact parts_token completes
    | braces =>
      obtain ⟨name, rest, spelt, names⟩ := completes
      have opening : token.chars ++ cs = Token.opening.chars ++ (name.chars ++ rest) := spelt
      obtain ⟨rfl, rfl⟩ := Token.append_inj opening
      exact ⟨_, rfl, name, rest, rfl, names⟩
    | member =>
      obtain ⟨name, rest, spelt, names⟩ := completes
      obtain ⟨rfl, rfl⟩ := Quoted.token_of_chars spelt
      exact ⟨_, (next_name name).2, names⟩
    | members => exact names_token completes
  · rintro ⟨behind, follows, completes⟩
    revert follows
    fun_cases next phase token with
    | case1 aggregated piece pieces =>
      rintro ⟨⟩
      exact ⟨⟨piece :: pieces, List.cons_ne_nil _ _⟩, cs, rfl, completes⟩
    | case2 aggregated =>
      rintro ⟨⟩
      obtain ⟨name, rest, rfl, parts, rfl, few⟩ := completes
      exact ⟨.segment name :: parts, rfl, few⟩
    | case3 =>
      rintro ⟨⟩
      obtain ⟨first, rest, rfl, more, rest, rfl, parts, rfl, few⟩ := completes
      refine ⟨.aggregate first more :: parts, by simp [Token.chars, Part.chars], ?_⟩
      rw [List.countP_cons_of_pos rfl]
      exact Nat.succ_le_succ few
    | case4 =>
      rintro ⟨⟩
      obtain ⟨name, rest, rfl, names⟩ := completes
      exact ⟨name, rest, rfl, names⟩
    | case5 piece pieces =>
      rintro ⟨⟩
      exact ⟨⟨piece :: pieces, List.cons_ne_nil _ _⟩, cs, rfl, completes⟩
    | case6 =>
      rintro ⟨⟩
      obtain ⟨name, rest, rfl, more, rest, rfl, parts⟩ := completes
      exact ⟨name :: more, rest, by simp [Token.chars, Quoted.commaChars], parts⟩
    | case7 =>
      rintro ⟨⟩
      exact ⟨[], cs, rfl, completes⟩
    | case8 => rintro ⟨⟩

theorem completes_spell_iff {phase : Phase} {tokens : List Token} {cs : List Char} :
    phase.Completes (spell tokens ++ cs) ↔
      ∃ behind, phase.run tokens = some behind ∧ behind.Completes cs := by
  induction tokens generalizing phase with
  | nil => simp [spell, run]
  | cons token tokens ih =>
    rw [Token.spell_cons, List.append_assoc, completes_token_iff]
    simp only [ih, run, Option.bind_eq_some_iff]
    constructor
    · rintro ⟨behind, follows, last, through, completes⟩
      exact ⟨last, ⟨behind, follows, through⟩, completes⟩
    · rintro ⟨last, ⟨behind, follows, through⟩, completes⟩
      exact ⟨behind, follows, last, through, completes⟩

/-- **No phase is a dead end.** -/
theorem exists_completes (phase : Phase) : ∃ cs, phase.Completes cs := by
  have name : Quoted := ⟨[.escaped 'x'], List.cons_ne_nil _ _⟩
  have parts (aggregated : Bool) : Parts aggregated [] := ⟨[], rfl, Nat.zero_le _⟩
  have names : Names ['\x7d'] := ⟨[], [], rfl, parts true⟩
  cases phase with
  | segment aggregated => exact ⟨_, name, [], rfl, parts aggregated⟩
  | part aggregated => exact ⟨[], parts aggregated⟩
  | braces => exact ⟨_, name, _, rfl, names⟩
  | member => exact ⟨_, name, _, rfl, names⟩
  | members => exact ⟨_, names⟩

/-- Queries are completed from the phase in which a segment has to follow. -/
theorem completes_iff_parse {cs : List Char} :
    (Phase.segment false).Completes cs ↔ ∃ query, parse (String.ofList cs) = .ok query := by
  constructor
  · rintro ⟨name, rest, rfl, parts, rfl, few⟩
    exact ⟨_, parse_eq_ok_iff.2 ⟨⟨name, parts⟩, rfl, few, rfl⟩⟩
  · rintro ⟨query, read⟩
    obtain ⟨⟨name, parts⟩, spelt, few, -⟩ := parse_eq_ok_iff.1 read
    rw [Derivation.text_eq_iff, String.toList_ofList] at spelt
    exact ⟨name, _, spelt, parts, rfl, few⟩

end Phase

/-- **The rows of tokens that begin a query** are those that the phases run through. -/
theorem isBeginning_iff {tokens : List Token} :
    IsBeginning (spell tokens) ↔ ∃ phase, (Phase.segment false).run tokens = some phase := by
  simp only [IsBeginning, ← Phase.completes_iff_parse, Phase.completes_spell_iff]
  constructor
  · rintro ⟨rest, phase, through, -⟩
    exact ⟨phase, through⟩
  · rintro ⟨phase, through⟩
    obtain ⟨rest, completes⟩ := phase.exists_completes
    exact ⟨rest, phase, through, completes⟩

/-! ### Where the reader stops -/

/-- What stands behind the opening quote of a name that nothing closes. -/
def Unterminated (body : List Char) : Prop :=
  ∀ (pieces : List Piece) (rest : List Char), body ≠ pieces.flatMap Piece.chars ++ '"' :: rest

theorem unterminated_of_unquote {body : List Char} (h : unquote body = none) :
    Unterminated body := by
  rintro pieces rest rfl
  rw [unquote_pieces] at h
  cases h

/-- **What a flaw says of the text** from its position on. -/
def Flaw.Describes : Flaw → List Char → Prop
  | .markerFirst, cs | .secondMarker, cs => ['|', '='] <+: cs
  | .nothingAfterDot, cs | .nameExpected _, cs | .braceExpected _ none, cs => cs = []
  | .unexpected found, cs | .unquotedName _ found, cs | .braceExpected _ (some found), cs =>
    [found] <+: cs
  | .emptyShape, cs => ['\x7d'] <+: cs
  | .unbalancedQuote _, cs => ∃ body, cs = '"' :: body ∧ Unterminated body
  | .emptyName _, cs => ['"', '"'] <+: cs

namespace Phase

/-- **A stop in a phase**: behind a row of tokens, before a text that starts with no token that can
follow, with a flaw that describes that text. -/
inductive Stops : Phase → List Char → Stop → Prop
  | here {phase : Phase} {cs : List Char} {flaw : Flaw}
      (stuck : ∀ token : Token, token.chars <+: cs → phase.next token = none)
      (described : flaw.Describes cs) : Stops phase cs ⟨flaw, cs.length⟩
  | token {phase behind : Phase} (token : Token) {cs : List Char} {stop : Stop}
      (follows : phase.next token = some behind) (stops : Stops behind cs stop) :
      Stops phase (token.chars ++ cs) stop

/-- A phase in which a name has to follow. -/
def WantsName (phase : Phase) : Prop :=
  phase = .member ∨ ∃ aggregated, phase = .segment aggregated

/-- Where a name has to follow, nothing else can. -/
theorem stuck_name {phase : Phase} {cs : List Char} (wants : phase.WantsName)
    (no_name : ∀ name : Quoted, ¬name.chars <+: cs) (token : Token) (starts : token.chars <+: cs) :
    phase.next token = none := by
  cases token with
  | name pieces =>
    cases pieces with
    | nil => rcases wants with rfl | ⟨aggregated, rfl⟩ <;> rfl
    | cons piece pieces =>
      exact absurd starts (no_name ⟨piece :: pieces, List.cons_ne_nil _ _⟩)
  | _ => rcases wants with rfl | ⟨aggregated, rfl⟩ <;> rfl

/-- A name starts with a quote. -/
theorem no_name_of_ne {c : Char} {rest : List Char} (other : c ≠ '"') (name : Quoted) :
    ¬name.chars <+: c :: rest :=
  fun starts => other (List.cons_prefix_cons.1 starts).1.symm

/-- Where a name has to follow, the reader of names stops at once. -/
theorem stops_quotedName {phase : Phase} {role : Role} {cs : List Char} {stop : Stop}
    (wants : phase.WantsName) (refused : quotedName role cs = .error stop) :
    phase.Stops cs stop := by
  have no_name : ∀ name : Quoted, ¬name.chars <+: cs := by
    rintro name ⟨rest, rfl⟩
    rw [quotedName_chars] at refused
    cases refused
  have stuck := stuck_name wants no_name
  unfold quotedName at refused
  split at refused
  case h_1 =>
    cases refused
    exact .here stuck rfl
  case h_2 rest =>
    split at refused
    case h_1 open_ =>
      cases refused
      exact .here stuck ⟨rest, rfl, unterminated_of_unquote open_⟩
    case h_2 more closed =>
      cases refused
      obtain ⟨pieces, rfl, nothing⟩ := exists_pieces_of_unquote closed
      obtain rfl := List.map_eq_nil_iff.1 nothing.symm
      exact .here stuck ⟨more, rfl⟩
    case h_3 => cases refused
  case h_3 c rest _ =>
    cases refused
    exact .here stuck ⟨rest, rfl⟩

/-- At the end of a text no token can follow. -/
theorem stuck_nil (phase : Phase) (token : Token) (starts : token.chars <+: []) :
    phase.next token = none :=
  absurd (List.prefix_nil.1 starts) token.chars_ne_nil

/-- Behind a name of a shape nothing can follow but a comma or a brace. -/
theorem stuck_members {c : Char} {rest : List Char} (no_comma : c ≠ ',') (no_brace : c ≠ '\x7d')
    (token : Token) (starts : token.chars <+: c :: rest) : Phase.members.next token = none := by
  cases token with
  | comma => exact absurd (List.cons_prefix_cons.1 starts).1.symm no_comma
  | closing => exact absurd (List.cons_prefix_cons.1 starts).1.symm no_brace
  | _ => rfl

/-- Behind a marker nothing can follow but a brace. -/
theorem stuck_braces {c : Char} {rest : List Char} (no_brace : c ≠ '\x7b') (token : Token)
    (starts : token.chars <+: c :: rest) : Phase.braces.next token = none := by
  cases token with
  | opening => exact absurd (List.cons_prefix_cons.1 starts).1.symm no_brace
  | _ => rfl

/-- Behind a part nothing can follow but a dot or, where none came before, a marker. -/
theorem stuck_part {aggregated : Bool} {cs : List Char} (no_dot : ¬['.'] <+: cs)
    (no_marker : aggregated = false → ¬['|', '='] <+: cs) (token : Token)
    (starts : token.chars <+: cs) : (Phase.part aggregated).next token = none := by
  cases token with
  | dot => exact absurd starts no_dot
  | marker =>
    cases aggregated with
    | false => exact absurd starts (no_marker rfl)
    | true => rfl
  | _ => rfl

/-- A stop behind a shape. -/
theorem stops_behind_names (more : List Quoted) {cs : List Char} {stop : Stop}
    (stops : (Phase.part true).Stops cs stop) :
    Phase.members.Stops (Quoted.commaChars more ++ '\x7d' :: cs) stop := by
  induction more with
  | nil => exact .token .closing rfl stops
  | cons name more ih =>
    have spelt : Quoted.commaChars (name :: more) ++ '\x7d' :: cs = Token.comma.chars ++
        (name.token.chars ++ (Quoted.commaChars more ++ '\x7d' :: cs)) := by
      simp [Quoted.commaChars, Quoted.token, Token.chars, Quoted.chars]
    rw [spelt]
    exact .token _ rfl (.token _ (next_name name).2 ih)

/-- The reader of the names of a shape stops in a phase of the shape. -/
theorem stops_shapeNames {names : List String} {cs : List Char} {stop : Stop}
    (refused : shapeNames names cs = .error stop) : Phase.member.Stops cs stop := by
  fun_induction shapeNames names cs with
  | case1 names cs stop' found =>
    cases refused
    exact stops_quotedName (.inl rfl) found
  | case2 names cs name rest found ih =>
    obtain ⟨quoted, rfl, rfl⟩ := quotedName_eq_ok_iff.1 found
    exact .token _ (next_name quoted).2 (.token .comma rfl (ih refused))
  | case3 => cases refused
  | case4 names cs name found =>
    cases refused
    obtain ⟨quoted, rfl, rfl⟩ := quotedName_eq_ok_iff.1 found
    exact .token _ (next_name quoted).2 (.here (stuck_nil _) rfl)
  | case5 names cs name c rest no_comma no_brace found =>
    cases refused
    obtain ⟨quoted, rfl, rfl⟩ := quotedName_eq_ok_iff.1 found
    exact .token _ (next_name quoted).2 (.here (stuck_members no_comma no_brace) ⟨rest, rfl⟩)

/-- The reader of a shape stops in a phase of the shape. -/
theorem stops_shape {cs : List Char} {stop : Stop} (refused : shape cs = .error stop) :
    Phase.braces.Stops cs stop := by
  unfold shape at refused
  split at refused
  case h_1 rest =>
    cases refused
    have no_name : ∀ name : Quoted, ¬name.chars <+: '\x7d' :: rest :=
      no_name_of_ne (by decide)
    exact .token .opening rfl (.here (stuck_name (.inl rfl) no_name) ⟨rest, rfl⟩)
  case h_2 rest =>
    exact .token .opening rfl (stops_shapeNames refused)
  case h_3 =>
    cases refused
    exact .here (stuck_nil _) rfl
  case h_4 c rest _ no_brace =>
    cases refused
    exact .here (stuck_braces no_brace) ⟨rest, rfl⟩

/-- A rewritten error is an error. -/
theorem map_eq_error_iff {ε α β : Type} {f : α → β} {x : Except ε α} {error : ε} :
    x.map f = .error error ↔ x = .error error := by
  cases x <;> simp [Except.map]

/-- The reader of parts stops in a phase behind a part. -/
theorem stops_segments {aggregated : Bool} {cs : List Char} {stop : Stop}
    (refused : segments aggregated cs = .error stop) : (Phase.part aggregated).Stops cs stop := by
  fun_induction segments aggregated cs with
  | case1 => cases refused
  | case2 =>
    cases refused
    exact .token .dot rfl (.here (stuck_nil _) rfl)
  | case3 aggregated rest _ stop' found =>
    cases refused
    exact .token .dot rfl (stops_quotedName (.inr ⟨aggregated, rfl⟩) found)
  | case4 aggregated cs _ name rest found ih =>
    obtain ⟨quoted, rfl, rfl⟩ := quotedName_eq_ok_iff.1 found
    exact .token .dot rfl
      (.token _ ((next_name quoted).1 aggregated) (ih (map_eq_error_iff.1 refused)))
  | case5 rest =>
    cases refused
    have no_dot : ¬['.'] <+: '|' :: '=' :: rest := fun starts =>
      absurd (List.cons_prefix_cons.1 starts).1 (by decide)
    exact .here (stuck_part no_dot fun common => Bool.noConfusion common) ⟨rest, rfl⟩
  | case6 aggregated rest not_yet stop' found =>
    cases refused
    obtain rfl := Bool.eq_false_iff.2 not_yet
    exact .token .marker rfl (stops_shape found)
  | case7 aggregated cs not_yet _ behind found ih =>
    obtain rfl := Bool.eq_false_iff.2 not_yet
    obtain ⟨first, more, rfl, rfl⟩ := shape_eq_ok_iff.1 found
    have names := stops_behind_names more (ih (map_eq_error_iff.1 refused))
    have inside : Phase.braces.Stops (Token.opening.chars ++ (first.token.chars ++
        (Quoted.commaChars more ++ '\x7d' :: behind))) stop :=
      .token _ rfl (.token _ (next_name first).2 names)
    simpa [Token.chars, Quoted.token, Quoted.chars] using
      (Stops.token .marker rfl inside : (Phase.part false).Stops _ stop)
  | case8 aggregated c rest _ no_dot no_marker =>
    cases refused
    refine .here (stuck_part ?_ fun _ => ?_) ⟨rest, rfl⟩
    · rintro ⟨more, same⟩
      exact no_dot (List.cons.inj same).1.symm
    · rintro ⟨more, same⟩
      exact no_marker more (List.cons.inj same).1.symm (List.cons.inj same).2.symm

/-- **Where the reader of queries stops.** -/
theorem stops_readSteps {cs : List Char} {stop : Stop} (refused : readSteps cs = .error stop) :
    (Phase.segment false).Stops cs stop := by
  unfold readSteps at refused
  split at refused
  case h_1 rest =>
    cases refused
    exact .here (stuck_name (.inr ⟨false, rfl⟩) (no_name_of_ne (by decide))) ⟨rest, rfl⟩
  case h_2 =>
    split at refused
    case h_1 stop' found =>
      cases refused
      exact stops_quotedName (.inr ⟨false, rfl⟩) found
    case h_2 name rest found =>
      obtain ⟨quoted, rfl, rfl⟩ := quotedName_eq_ok_iff.1 found
      exact .token _ ((next_name quoted).1 false) (stops_segments (map_eq_error_iff.1 refused))

/-- The tokens before a stop, and the text behind them. -/
theorem Stops.exists_tokens {phase : Phase} {cs : List Char} {stop : Stop}
    (stops : phase.Stops cs stop) :
    ∃ tokens behind rest, cs = spell tokens ++ rest ∧ phase.run tokens = some behind ∧
      (∀ token : Token, token.chars <+: rest → behind.next token = none) ∧
      rest.length = stop.left ∧ stop.flaw.Describes rest := by
  induction stops with
  | here stuck described => exact ⟨[], _, _, rfl, rfl, stuck, rfl, described⟩
  | token token follows _ ih =>
    obtain ⟨tokens, behind, rest, rfl, through, found⟩ := ih
    refine ⟨token :: tokens, behind, rest, by simp, ?_, found⟩
    rw [run, follows, Option.bind_some, through]

theorem run_concat {phase : Phase} {tokens : List Token} {token : Token} :
    phase.run (tokens ++ [token]) = (phase.run tokens).bind (·.next token) := by
  induction tokens generalizing phase with
  | nil => simp [run]
  | cons first tokens ih => simp [run, ih, Option.bind_assoc]

end Phase

/-! ### The position of an error -/

/-- **The last boundary up to which a text is the beginning of a query**, if no token behind it
leads on. -/
theorem isGreatest_of_stuck {cs rest : List Char} {tokens : List Token}
    (spelt : cs = spell tokens ++ rest) (beginning : IsBeginning (spell tokens))
    (stuck : ∀ token : Token, token.chars <+: rest → ¬IsBeginning (spell (tokens ++ [token]))) :
    IsGreatest {n | IsBoundary cs n ∧ IsBeginning (cs.take n)} (spell tokens).length := by
  subst spelt
  constructor
  · obtain ⟨more, rest', spelt, stuck'⟩ := exists_splits rest
    refine ⟨⟨tokens, more, rest', ⟨by simp [spelt], stuck'⟩, rfl⟩, ?_⟩
    rwa [List.take_left]
  · rintro n ⟨⟨others, more, rest', splits, rfl⟩, beginning'⟩
    have same : spell others ++ (spell more ++ rest') = spell tokens ++ rest := by
      simpa using splits.spelt.symm
    rw [← same, List.take_left] at beginning'
    rcases Token.comparable same with shorter | ⟨further, rfl⟩
    · obtain ⟨further, rfl⟩ := shorter
      simp
    · cases further with
      | nil => simp
      | cons token further =>
        -- a longer row goes on with a token that leads nowhere
        have behind : token.chars ++ (spell further ++ (spell more ++ rest')) = rest := by
          simpa using same
        have leads : IsBeginning (spell (tokens ++ [token])) :=
          beginning'.of_prefix ⟨spell further, by simp [spell]⟩
        exact absurd leads (stuck token ⟨_, behind⟩)

/-- What the reader of queries refuses, and why. -/
theorem exists_tokens_of_readSteps {cs : List Char} {stop : Stop}
    (refused : readSteps cs = .error stop) :
    ∃ tokens rest, cs = spell tokens ++ rest ∧ rest.length = stop.left ∧
      stop.flaw.Describes rest ∧
      IsGreatest {n | IsBoundary cs n ∧ IsBeginning (cs.take n)} (spell tokens).length := by
  obtain ⟨tokens, phase, rest, spelt, through, stuck, left, described⟩ :=
    (Phase.stops_readSteps refused).exists_tokens
  refine ⟨tokens, rest, spelt, left, described, isGreatest_of_stuck spelt ?_ ?_⟩
  · exact isBeginning_iff.2 ⟨phase, through⟩
  · intro token starts
    rw [isBeginning_iff, Phase.run_concat, through, Option.bind_some, stuck token starts]
    exact nofun

/-- Where a quote opens no name, the text before it is the longest beginning of a query, if it is
one at all. -/
theorem isGreatest_of_quote {cs body : List Char} {tokens : List Token}
    (spelt : cs = spell tokens ++ '"' :: body) (beginning : IsBeginning (spell tokens))
    (nameless : Unterminated body ∨ ['"'] <+: body) :
    IsGreatest {n | IsBoundary cs n ∧ IsBeginning (cs.take n)} (spell tokens).length := by
  refine isGreatest_of_stuck spelt beginning fun token starts => ?_
  obtain ⟨more, same⟩ := starts
  rcases nameless with unterminated | ⟨rest, rfl⟩
  · -- the text that follows starts with no token at all
    cases token with
    | name pieces =>
      have closed : '"' :: (pieces.flatMap Piece.chars ++ '"' :: more) = '"' :: body := by
        simpa [Token.chars] using same
      exact absurd (List.cons.inj closed).2.symm (unterminated pieces more)
    | _ => simp [Token.chars] at same
  · -- it starts with the empty name, which can follow nowhere
    have empty : token.chars ++ more = (Token.name []).chars ++ rest := same
    obtain ⟨rfl, -⟩ := Token.append_inj empty
    rw [isBeginning_iff, Phase.run_concat]
    rintro ⟨phase, through⟩
    obtain ⟨last, -, follows⟩ := Option.bind_eq_some_iff.1 through
    cases last <;> cases follows

/-- **The position of an error.** A text that is refused has one split into tokens, and the error
carries the text. It has no position exactly if the text is blank; else its position is the last
boundary of the split up to which the text is the beginning of a query, so that it is no larger
than the length of the text, and what stands there is what the flaw says. In particular a name that
is unterminated or empty, behind the beginning of a query, is reported at its opening quote. -/
theorem position_of_parse {raw : String} {error : Error} (refused : parse raw = .error error) :
    (∃! split : List Token × List Char, Splits raw.toList split.1 split.2) ∧
    error.query = raw ∧
    (error.position? = none ↔ ∀ c ∈ raw.toList, Text.isBlank c = true) ∧
    (∀ position, error.position? = some position →
      IsGreatest {n | IsBoundary raw.toList n ∧ IsBeginning (raw.toList.take n)} position ∧
      position ≤ raw.toList.length) ∧
    (∀ flaw position query, error = .malformed flaw position query →
      flaw.Describes (raw.toList.drop position)) ∧
    ∀ tokens body, raw.toList = spell tokens ++ '"' :: body → IsBeginning (spell tokens) →
      (Unterminated body ∨ ['"'] <+: body) → error.position? = some (spell tokens).length := by
  refine ⟨existsUnique_splits _, query_of_parse_eq_error refused, ?_⟩
  unfold parse at refused
  split at refused
  case isTrue blank =>
    cases refused
    rw [List.all_eq_true] at blank
    refine ⟨iff_of_true rfl blank, nofun, nofun, fun tokens body spelt _ _ => ?_⟩
    have quote : '"' ∈ raw.toList := by simp [spelt]
    exact absurd (blank _ quote) (by decide)
  case isFalse solid =>
    split at refused
    case h_1 => cases refused
    case h_2 stop stopped =>
      obtain ⟨tokens, rest, spelt, left, described, greatest⟩ := exists_tokens_of_readSteps stopped
      have place : raw.toList.length - stop.left = (spell tokens).length := by
        rw [spelt, List.length_append, left, Nat.add_sub_cancel]
      cases refused
      rw [place]
      refine ⟨iff_of_false nofun (mt List.all_eq_true.2 solid), ?_, ?_, ?_⟩
      · rintro position ⟨⟩
        exact ⟨greatest, by simp [spelt]⟩
      · rintro flaw position query ⟨⟩
        rwa [spelt, List.drop_left]
      · intro others body spelt' beginning nameless
        rw [greatest.unique (isGreatest_of_quote spelt' beginning nameless)]
        rfl

/-- An empty name behind a dot. Its quotes are a token as well, but nothing that starts with it is
a query. -/
theorem position_of_parse_empty :
    let raw := "\"a\".\"\""
    let error := Error.malformed (.emptyName .keySegment) 4 raw
    let tokens : List Token := [.name [.plain 'a' (by decide)], .dot]
    parse raw = .error error ∧ raw.toList = spell tokens ++ '"' :: ['"'] ∧
      IsBeginning (spell tokens) ∧ error.position? = some (spell tokens).length ∧
      IsGreatest {n | IsBoundary raw.toList n ∧ IsBeginning (raw.toList.take n)} 4 := by
  intro raw error tokens
  have stopped : segments false ['.', '"', '"'] = .error ⟨.emptyName .keySegment, 2⟩ := by
    rw [segments]
    · split <;> simp_all [quotedName, unquote]
    · exact List.cons_ne_nil _ _
  have refused : parse raw = .error error := by
    simp [raw, error, parse, readSteps, quotedName, unquote, stopped, Except.map, Text.isBlank]
  have spelt : raw.toList = spell tokens ++ '"' :: ['"'] := by decide
  have beginning : IsBeginning (spell tokens) := isBeginning_iff.2 ⟨.segment false, rfl⟩
  obtain ⟨-, -, -, greatest, -, name⟩ := position_of_parse refused
  exact ⟨refused, spelt, beginning, name tokens ['"'] spelt beginning (.inr ⟨[], rfl⟩),
    (greatest 4 rfl).1⟩

end DocumentFilter.Query
