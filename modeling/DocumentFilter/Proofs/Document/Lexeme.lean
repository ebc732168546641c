import DocumentFilter.Proofs.Document.Legible

/-!
# The scalars of a JSON text

A JSON text can say one scalar in many ways. The grammar of these is given here by its trees: a
string is a row of pieces (`DocumentFilter.Json.Piece`), a number has digits, maybe a fraction and
maybe an exponent (`DocumentFilter.Json.Literal`), and the other scalars are words. A tree has the
characters that it spells and the document that it denotes, and neither mentions the reader.

What is read is spelt by some tree that denotes it. The converse does not hold for a string on its
own, since the codes of an upper and a lower half in a row are one piece only when they are read
together.

* `DocumentFilter.Json.exists_pieces_of_string`: strings;
* `DocumentFilter.Json.exists_literal_of_unsigned`: numbers;
* `DocumentFilter.Json.exists_scalar_of_plain`: **scalars**.
-/

namespace DocumentFilter

namespace Json

open Decimal (digitChar)
open Number (AreDigits signText)

/-! ### Strings -/

/-- The code of a character or of a half of one, in four digits. -/
structure Code where
  w : Char
  x : Char
  y : Char
  z : Char
  number : Nat
  read : hex4? w x y z = some number

/-- The text of a code. -/
def Code.chars (code : Code) : List Char :=
  ['\\', 'u', code.w, code.x, code.y, code.z]

/-- **A piece of a string**: a character that stands for itself, a backslash and a letter, a code,
or the codes of two halves. -/
inductive Piece
  | plain (c : Char) (ordinary : c ≠ '"' ∧ c ≠ '\\' ∧ 0x20 ≤ c.toNat)
  | escape (letter c : Char) (known : escape? letter = some c)
  | unicode (code : Code)
  | halves (high low : Code) (pair : isHighHalf high.number ∧ isLowHalf low.number)

/-- The text of a piece. -/
def Piece.chars : Piece → List Char
  | .plain c _ => [c]
  | .escape letter _ _ => ['\\', letter]
  | .unicode code => code.chars
  | .halves high low _ => high.chars ++ low.chars

/-- The character that a piece denotes. -/
def Piece.letter [StandIns] : Piece → Char
  | .plain c _ => c
  | .escape _ c _ => c
  | .unicode code => scalar code.number
  | .halves high low _ => pair high.number low.number

/-- The text of a string behind its opening quote. -/
def piecesChars (pieces : List Piece) : List Char :=
  pieces.flatMap Piece.chars ++ ['"']

theorem piecesChars_cons (piece : Piece) (pieces : List Piece) :
    piecesChars (piece :: pieces) = piece.chars ++ piecesChars pieces := by
  rw [piecesChars, List.flatMap_cons, List.append_assoc]
  rfl

theorem exists_piece_of_secondHalf [StandIns] {high : Code}
    (half : isHighHalf high.number = true) {c : Char} {cs rest : List Char}
    (h : secondHalf high.number cs = .ok (c, rest)) :
    ∃ piece : Piece, high.chars ++ cs = piece.chars ++ rest ∧ piece.letter = c := by
  unfold secondHalf at h
  split at h
  · rename_i w x y z next tail
    split at h
    · cases h
    · rename_i low read
      split at h
      · rename_i lower
        obtain ⟨rfl, rfl⟩ := Prod.mk.inj (Except.ok.inj h)
        exact ⟨.halves high ⟨w, x, y, z, low, read⟩ ⟨half, lower⟩, rfl, rfl⟩
      · cases h
        exact ⟨.unicode high, rfl, rfl⟩
  · cases h
    exact ⟨.unicode high, rfl, rfl⟩

/-- **A code that is read**, alone or with the other half, is a piece. -/
theorem exists_piece_of_unicodeEscape [StandIns] {c : Char} {cs rest : List Char}
    (h : unicodeEscape cs = .ok (c, rest)) :
    ∃ piece : Piece, '\\' :: 'u' :: cs = piece.chars ++ rest ∧ piece.letter = c := by
  unfold unicodeEscape at h
  split at h
  · rename_i w x y z next tail
    split at h
    · cases h
    · rename_i n read
      split at h
      · rename_i half
        have half : isHighHalf (Code.mk w x y z n read).number = true := half
        exact exists_piece_of_secondHalf half h
      · cases h
        exact ⟨.unicode ⟨w, x, y, z, n, read⟩, rfl, rfl⟩
  · cases h

/-- **A string that is read** is spelt by pieces, and they denote its characters. -/
theorem exists_pieces_of_string [StandIns] {start : Nat} {before cs rest : List Char} {s : String}
    (h : string start before cs = .ok (s, rest)) :
    ∃ pieces, cs = piecesChars pieces ++ rest ∧
      s = String.ofList (before.reverse ++ pieces.map Piece.letter) := by
  -- one more piece in front of those that are left
  have cons : ∀ {before cs tail : List Char} (piece : Piece), cs = piece.chars ++ tail →
      (∃ pieces, tail = piecesChars pieces ++ rest ∧
        s = String.ofList ((piece.letter :: before).reverse ++ pieces.map Piece.letter)) →
      ∃ pieces, cs = piecesChars pieces ++ rest ∧
        s = String.ofList (before.reverse ++ pieces.map Piece.letter) := by
    rintro before cs tail piece rfl ⟨pieces, rfl, rfl⟩
    refine ⟨piece :: pieces, ?_, ?_⟩
    · rw [piecesChars_cons, List.append_assoc]
    · rw [List.reverse_cons, List.append_assoc, List.singleton_append, List.map_cons]
  fun_induction string start before cs with
  | case1 => cases h
  | case2 before tail =>
    cases h
    exact ⟨[], rfl, by rw [List.map_nil, List.append_nil]⟩
  | case3 => cases h
  | case4 => cases h
  | case5 before tail c behind found ih =>
    obtain ⟨piece, spelt, rfl⟩ := exists_piece_of_unicodeEscape found
    exact cons piece spelt (ih h)
  | case6 before letter tail _ c known ih => exact cons (.escape letter c known) rfl (ih h)
  | case7 => cases h
  | case8 => cases h
  | case9 before c tail quote alone code escape visible ih =>
    refine cons (.plain c ⟨fun same => quote same, fun same => ?_, by omega⟩) rfl (ih h)
    -- behind a backslash there is nothing, the letter of a code or another letter
    rcases tail with _ | ⟨letter, tail⟩
    · exact alone same rfl
    · exact escape letter tail same rfl

/-! ### Numbers -/

/-- An exponent: its letter, its sign if it has one, and its digits. -/
structure Exponent where
  upper : Bool
  sign : Option Bool
  digits : List Nat
  below : AreDigits digits
  ne : digits ≠ []

namespace Exponent

/-- The sign of an exponent; the flag says that it is a minus. -/
def signChars : Option Bool → List Char
  | none => []
  | some negative => [Number.exponentSign negative]

/-- The text of an exponent. -/
def chars (e : Exponent) : List Char :=
  (if e.upper then 'E' else 'e') :: (signChars e.sign ++ e.digits.map digitChar)

/-- The number that an exponent denotes. -/
def value (e : Exponent) : Int :=
  if e.sign = some true then -(Decimal.value e.digits : Int) else Decimal.value e.digits

end Exponent

/-- **A number as it is written**: a sign, digits that start with no zero unless it is the only one,
the digits behind the point and an exponent. There are not too many digits if that is all. -/
structure Literal where
  negative : Bool
  whole : List Nat
  fraction : List Nat
  exponent : Option Exponent
  whole_below : AreDigits whole
  fraction_below : AreDigits fraction
  ne : whole ≠ []
  unpadded : ∀ rest, whole = 0 :: rest → rest = []
  short : fraction = [] → exponent = none → whole.length ≤ integerDigits

namespace Literal

/-- The digits behind the point, with the point. -/
def fractionChars : List Nat → List Char
  | [] => []
  | d :: ds => '.' :: (d :: ds).map digitChar

/-- The exponent, if there is one. -/
def exponentChars : Option Exponent → List Char
  | none => []
  | some e => e.chars

/-- The text of a number without its sign. -/
def unsignedChars (l : Literal) : List Char :=
  l.whole.map digitChar ++ (fractionChars l.fraction ++ exponentChars l.exponent)

/-- The text of a number. -/
def chars (l : Literal) : List Char :=
  signText l.negative ++ l.unsignedChars

/-- The exponent of the last digit. -/
def scale (l : Literal) : Int :=
  (l.exponent.map Exponent.value).getD 0 - l.fraction.length

/-- **The number that is written**: an integer if there is neither a fraction nor an exponent, and a
binary64 number else. -/
def number (l : Literal) : Number :=
  if l.fraction = [] ∧ l.exponent = none then
    .int (if l.negative then -(Decimal.value l.whole : Int) else Decimal.value l.whole)
  else .float (.ofDecimal l.negative (Decimal.value (l.whole ++ l.fraction)) l.scale)

end Literal

/-- The whole part that is read is a zero that stands alone, or has no zero in front. -/
theorem exists_digits_of_whole? {cs ds rest : List Char} (h : whole? cs = some (ds, rest)) :
    ∃ ws, AreDigits ws ∧ ws ≠ [] ∧ (∀ others, ws = 0 :: others → others = []) ∧
      ds = ws.map digitChar := by
  obtain ⟨spelt, ne, digits⟩ := append_of_whole? h
  obtain ⟨ws, below, rfl⟩ := exists_areDigits digits
  refine ⟨ws, below, fun nil => ne (by rw [nil, List.map_nil]), ?_, rfl⟩
  rintro others rfl
  subst spelt
  -- in front of other digits, a zero would be read alone
  have alone : some (['0'], others.map digitChar ++ rest) =
      some ('0' :: others.map digitChar, rest) := h
  have one := (Prod.mk.inj (Option.some.inj alone)).1
  exact List.map_eq_nil_iff.1 (List.cons.inj one).2.symm

/-- The fraction that is read is a point and digits, or nothing. -/
theorem exists_digits_of_fraction {cs fs rest : List Char} (h : fraction cs = (fs, rest)) :
    ∃ ds, AreDigits ds ∧ fs = ds.map digitChar ∧ cs = Literal.fractionChars ds ++ rest := by
  unfold fraction at h
  split at h
  · rename_i tail
    split at h
    · cases h
      exact ⟨[], fun _ mem => absurd mem List.not_mem_nil, rfl, rfl⟩
    · rename_i ne
      cases h
      have digits : ∀ c ∈ tail.takeWhile isDigit, isDigit c = true := fun c mem =>
        List.mem_takeWhile_imp mem
      obtain ⟨ds, below, same⟩ := exists_areDigits digits
      refine ⟨ds, below, same, ?_⟩
      rcases ds with _ | ⟨d, ds⟩
      · exact absurd same ne
      · rw [Literal.fractionChars, ← same, List.cons_append, List.takeWhile_append_dropWhile]
  · cases h
    exact ⟨[], fun _ mem => absurd mem List.not_mem_nil, rfl, rfl⟩

theorem exists_sign_of_exponentSign {cs rest : List Char} {negative : Bool}
    (h : exponentSign cs = (negative, rest)) :
    ∃ sign, cs = Exponent.signChars sign ++ rest ∧ decide (sign = some true) = negative := by
  unfold exponentSign at h
  split at h
  · cases h
    exact ⟨some true, rfl, rfl⟩
  · cases h
    exact ⟨some false, rfl, rfl⟩
  · cases h
    exact ⟨none, rfl, rfl⟩

/-- **An exponent that is read** is spelt by an exponent that denotes it. -/
theorem exists_exponent_of_exponent? {cs rest : List Char} {n : Int}
    (h : exponent? cs = some (n, rest)) : ∃ e : Exponent, cs = e.chars ++ rest ∧ n = e.value := by
  unfold exponent? at h
  split at h
  · cases h
  · rename_i c tail
    split at h
    · rename_i letter
      obtain ⟨negative, behind, signed⟩ :
          ∃ negative behind, exponentSign tail = (negative, behind) :=
        ⟨_, _, rfl⟩
      simp only [signed] at h
      split at h
      · cases h
      · rename_i ne
        cases h
        obtain ⟨sign, rfl, minus⟩ := exists_sign_of_exponentSign signed
        have digits : ∀ c ∈ behind.takeWhile isDigit, isDigit c = true := fun c mem =>
          List.mem_takeWhile_imp mem
        obtain ⟨ds, below, same⟩ := exists_areDigits digits
        have ds_ne : ds ≠ [] := fun nil => ne (by rw [spanDigits, same, nil, List.map_nil])
        have first : c = if decide (c = 'E') then 'E' else 'e' := by
          rcases letter with rfl | rfl
          · rfl
          · rfl
        refine ⟨⟨c = 'E', sign, ds, below, ds_ne⟩, ?_, ?_⟩
        · rw [Exponent.chars, ← first, List.cons_append, List.append_assoc, ← same, spanDigits,
            List.takeWhile_append_dropWhile]
        · rw [spanDigits, same, natOf_map below, ← minus, Exponent.value]
          simp only [decide_eq_true_eq]
    · cases h

/-- **A number that is read** behind its sign is spelt by one that denotes it. -/
theorem exists_literal_of_unsigned {negative : Bool} {cs rest : List Char} {left : Nat} {n : Number}
    (h : unsigned negative cs left = .ok (n, rest)) :
    ∃ l : Literal, l.negative = negative ∧ cs = l.unsignedChars ++ rest ∧ n = l.number := by
  cases found : whole? cs with
  | none =>
    rw [unsigned, found] at h
    cases h
  | some parts =>
    obtain ⟨ds, tail⟩ := parts
    obtain ⟨fs, behind, pointed⟩ : ∃ fs behind, fraction tail = (fs, behind) := ⟨_, _, rfl⟩
    obtain ⟨spelt, -, -⟩ := append_of_whole? found
    obtain ⟨ws, whole_below, ne, unpadded, rfl⟩ := exists_digits_of_whole? found
    obtain ⟨more, more_below, rfl, point⟩ := exists_digits_of_fraction pointed
    have both : natOf (ws.map digitChar ++ more.map digitChar) = Decimal.value (ws ++ more) := by
      rw [← List.map_append, natOf_map (whole_below.append more_below)]
    cases exponent : exponent? behind with
    | some found' =>
      obtain ⟨n, last⟩ := found'
      obtain ⟨e, rfl, rfl⟩ := exists_exponent_of_exponent? exponent
      rw [unsigned_of_exponent found pointed exponent, both] at h
      cases h
      refine ⟨⟨negative, ws, more, some e, whole_below, more_below, ne, unpadded,
        fun _ none => absurd none (Option.some_ne_none e)⟩, rfl, ?_, ?_⟩
      · rw [spelt, point, Literal.unsignedChars, Literal.exponentChars, List.append_assoc,
          List.append_assoc]
      · simp [Literal.number, Literal.scale]
    | none =>
      by_cases nil : more = []
      · subst nil
        rw [unsigned_of_whole found pointed exponent rfl] at h
        split at h
        · cases h
        · rename_i short
          obtain ⟨rfl, rfl⟩ := Prod.mk.inj (Except.ok.inj h)
          rw [List.length_map] at short
          refine ⟨⟨negative, ws, [], none, whole_below, more_below, ne, unpadded,
            fun _ _ => Nat.le_of_not_lt short⟩, rfl, ?_, ?_⟩
          · rw [spelt, point, Literal.unsignedChars, Literal.exponentChars, List.append_nil,
              List.append_assoc]
          · rw [natOf_map whole_below]
            exact (if_pos ⟨rfl, rfl⟩).symm
      · rw [unsigned_of_fraction found pointed exponent (by simpa using nil), both] at h
        cases h
        refine ⟨⟨negative, ws, more, none, whole_below, more_below, ne, unpadded,
          fun empty => absurd empty nil⟩, rfl, ?_, ?_⟩
        · rw [spelt, point, Literal.unsignedChars, Literal.exponentChars, List.append_nil,
            List.append_assoc]
        · rw [Literal.number, if_neg fun both => nil both.1, Literal.scale, List.length_map,
            Option.map_none, Option.getD_none, Int.zero_sub]

/-- **A number that is read** is spelt by one that denotes it. -/
theorem exists_literal_of_number {cs rest : List Char} {n : Number}
    (h : number cs = .ok (n, rest)) : ∃ l : Literal, cs = l.chars ++ rest ∧ n = l.number := by
  unfold number at h
  split at h
  · obtain ⟨l, minus, rfl, rfl⟩ := exists_literal_of_unsigned h
    refine ⟨l, ?_, rfl⟩
    rw [Literal.chars, minus]
    rfl
  · obtain ⟨l, plus, rfl, rfl⟩ := exists_literal_of_unsigned h
    refine ⟨l, ?_, rfl⟩
    rw [Literal.chars, plus]
    rfl

/-! ### Scalars -/

/-- **A scalar as it is written.** -/
inductive Scalar
  | null
  | bool (b : Bool)
  | nan
  | infinity (negative : Bool)
  | string (pieces : List Piece)
  | number (l : Literal)

namespace Scalar

/-- The text of a scalar. -/
def chars : Scalar → List Char
  | .null => "null".toList
  | .bool true => "true".toList
  | .bool false => "false".toList
  | .nan => "NaN".toList
  | .infinity negative => signText negative ++ "Infinity".toList
  | .string pieces => '"' :: piecesChars pieces
  | .number l => l.chars

/-- The document that a scalar denotes. -/
def document [StandIns] : Scalar → Document
  | .null => .null
  | .bool b => .bool b
  | .nan => .number (.float .nan)
  | .infinity negative => .number (.float (.infinite negative))
  | .string pieces => .string (String.ofList (pieces.map Piece.letter))
  | .number l => .number l.number

end Scalar

/-- **A scalar that is read** is spelt by one that denotes it. -/
theorem exists_scalar_of_plain [StandIns] {cs rest : List Char} {doc : Document}
    (h : plain cs = .ok (doc, rest)) : ∃ s : Scalar, cs = s.chars ++ rest ∧ doc = s.document := by
  unfold plain at h
  split at h
  · obtain ⟨⟨s, tail⟩, read, same⟩ := Except.bind_eq_ok.1 h
    cases same
    obtain ⟨pieces, rfl, rfl⟩ := exists_pieces_of_string read
    exact ⟨.string pieces, rfl, rfl⟩
  · cases h
    exact ⟨.null, rfl, rfl⟩
  · cases h
    exact ⟨.bool true, rfl, rfl⟩
  · cases h
    exact ⟨.bool false, rfl, rfl⟩
  · cases h
    exact ⟨.nan, rfl, rfl⟩
  · cases h
    exact ⟨.infinity false, rfl, rfl⟩
  · cases h
    exact ⟨.infinity true, rfl, rfl⟩
  · obtain ⟨⟨n, tail⟩, read, same⟩ := Except.bind_eq_ok.1 h
    cases same
    obtain ⟨l, rfl, rfl⟩ := exists_literal_of_number read
    exact ⟨.number l, rfl, rfl⟩

end Json

end DocumentFilter
