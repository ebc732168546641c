import DocumentFilter.Document.Text
import DocumentFilter.Number.Reader
import DocumentFilter.Proofs.Number.Rounding
import DocumentFilter.Proofs.Text.Numeral

/-!
# The text of a number is read back

A number is written in one of three forms: digits around a point, digits and an exponent, or
one digit, a point, digits and an exponent. `DocumentFilter.Number.DecimalText` is the grammar
of these forms, with the digits and the exponent that a text shows. The reader takes a text of
the grammar for what it shows, and the writer produces texts of the grammar.

What a text shows need not be what was written: a positional text can have zeros behind the
digits. They do not matter, by `DocumentFilter.Binary64.ofDecimal_mul_tenPow`, and then the
digits round back by `DocumentFilter.Binary64.ofDecimal_shortest`.

* `DocumentFilter.Number.decimal?_decimalText`: the reader on the grammar;
* `DocumentFilter.Number.shows_positional`, `DocumentFilter.Number.shows_scientific`: the layouts
  of the writer, and `DocumentFilter.FloatNotation.exists_decimalText` for what it writes;
* `DocumentFilter.Number.ofText?_text`: **the text of a number is read back**.
-/

namespace DocumentFilter

namespace Number

open Decimal (digitChar)

/-! ### Digits -/

/-- Digits, each below ten. -/
def AreDigits (ds : List Nat) : Prop :=
  ∀ d ∈ ds, d < 10

theorem AreDigits.append {ds es : List Nat} (first : AreDigits ds) (next : AreDigits es) :
    AreDigits (ds ++ es) := fun d mem =>
  (List.mem_append.1 mem).elim (first d) (next d)

theorem areDigits_digits (n : Nat) : AreDigits (Decimal.digits n) := fun _ mem =>
  Decimal.digits_lt mem

theorem areDigits_zeros (n : Nat) : AreDigits (List.replicate n 0) := fun d mem => by
  rw [List.eq_of_mem_replicate mem]
  decide

theorem digit?_digitChar {d : Nat} (h : d < 10) : Text.digit? (digitChar d) = some d :=
  Text.digit?_of_asciiDigit? (Text.asciiDigit?_digitChar h)

/-- A text that does not go on with a digit. -/
def Stops (rest : List Char) : Prop :=
  ∀ c tail, rest = c :: tail → Text.digit? c = none

theorem stops_nil : Stops [] := fun _ _ h => nomatch h

theorem stops_cons {c : Char} (none : Text.digit? c = none) (tail : List Char) :
    Stops (c :: tail) := by
  rintro c tail ⟨⟩
  exact none

/-- Digits are read up to where they stop. -/
theorem spanDigits_append {ds : List Nat} (digits : AreDigits ds) {rest : List Char}
    (stops : Stops rest) : spanDigits (ds.map digitChar ++ rest) = (ds, rest) := by
  induction ds with
  | nil =>
    cases rest with
    | nil => rfl
    | cons c tail => rw [List.map_nil, List.nil_append, spanDigits, stops c tail rfl]
  | cons d ds ih =>
    obtain ⟨first, others⟩ := List.forall_mem_cons.1 digits
    rw [List.map_cons, List.cons_append, spanDigits, digit?_digitChar first, ih others]

theorem spanDigits_map {ds : List Nat} (digits : AreDigits ds) :
    spanDigits (ds.map digitChar) = (ds, []) := by
  have read := spanDigits_append digits stops_nil
  rwa [List.append_nil] at read

/-! ### Signs -/

/-- The sign of a number. -/
def signText (negative : Bool) : List Char :=
  if negative then ['-'] else []

/-- A digit is no sign. -/
theorem sign_of_digit {c : Char} {d : Nat} (digit : Text.asciiDigit? c = some d)
    (rest : List Char) : sign (c :: rest) = (false, c :: rest) := by
  have minus : c ≠ '-' := Text.ne_of_asciiDigit? digit rfl
  have plus : c ≠ '+' := Text.ne_of_asciiDigit? digit rfl
  rw [sign.eq_def]
  split
  · rename_i same
    exact absurd (List.cons.inj same).1 minus
  · rename_i same
    exact absurd (List.cons.inj same).1 plus
  · rfl

/-- A sign is read in front of a digit. -/
theorem sign_append (negative : Bool) {d : Nat} (digit : d < 10) (rest : List Char) :
    sign (signText negative ++ digitChar d :: rest) = (negative, digitChar d :: rest) := by
  cases negative with
  | true => rfl
  | false => exact sign_of_digit (Text.asciiDigit?_digitChar digit) rest

/-! ### The forms of a number -/

/-- The sign of an exponent that is always written. -/
def exponentSign (negative : Bool) : Char :=
  if negative then '-' else '+'

/-- **The forms of a number** without its sign, with the digits and the exponent of the last
digit that they show. -/
inductive DecimalText : List Char → List Nat → Int → Prop
  | positional {ws fs : List Nat} (whole : AreDigits ws) (fraction : AreDigits fs) (ne : ws ≠ [])
      (fraction_ne : fs ≠ []) :
      DecimalText (ws.map digitChar ++ '.' :: fs.map digitChar) (ws ++ fs) (-fs.length)
  | scientific {ws es : List Nat} (whole : AreDigits ws) (exponent : AreDigits es) (ne : ws ≠ [])
      (exponent_ne : es ≠ []) (negative : Bool) :
      DecimalText (ws.map digitChar ++ 'e' :: exponentSign negative :: es.map digitChar) ws
        (if negative then -(Decimal.value es : Int) else Decimal.value es)
  | pointed {ws fs es : List Nat} (whole : AreDigits ws) (fraction : AreDigits fs)
      (exponent : AreDigits es) (ne : ws ≠ []) (exponent_ne : es ≠ []) (negative : Bool) :
      DecimalText (ws.map digitChar ++ '.' :: (fs.map digitChar ++
          'e' :: exponentSign negative :: es.map digitChar)) (ws ++ fs)
        ((if negative then -(Decimal.value es : Int) else Decimal.value es) - fs.length)

/-- An exponent is read. -/
theorem exponent?_cons {es : List Nat} (digits : AreDigits es) (ne : es ≠ []) (negative : Bool) :
    exponent? ('e' :: exponentSign negative :: es.map digitChar) =
      some (if negative then -(Decimal.value es : Int) else Decimal.value es) := by
  have signed :
      sign (exponentSign negative :: es.map digitChar) = (negative, es.map digitChar) := by
    cases negative <;> rfl
  rw [exponent?, if_pos (.inl rfl)]
  simp only [signed, spanDigits_map digits, if_neg ne]

/-- What stands before the first point or exponent, if there is one. -/
theorem exists_digits {cs : List Char} {ds : List Nat} {e : Int} (h : DecimalText cs ds e) :
    ∃ ws mark rest, cs = ws.map digitChar ++ mark :: rest ∧ AreDigits ws ∧ ws ≠ [] ∧
      Text.digit? mark = none := by
  cases h with
  | positional whole _ ne _ => exact ⟨_, _, _, rfl, whole, ne, by decide⟩
  | scientific whole _ ne _ negative => exact ⟨_, _, _, rfl, whole, ne, by decide⟩
  | pointed whole _ _ ne _ negative => exact ⟨_, _, _, rfl, whole, ne, by decide⟩

/-- **A text of the grammar is read** as the decimal that it shows. -/
theorem decimal?_decimalText (negative : Bool) {cs : List Char} {ds : List Nat} {e : Int}
    (h : DecimalText cs ds e) :
    decimal? (signText negative ++ cs) =
      some (Binary64.ofDecimal negative (Decimal.value ds) e) := by
  have signed : sign (signText negative ++ cs) = (negative, cs) := by
    obtain ⟨ws, mark, rest, rfl, whole, ne, -⟩ := exists_digits h
    obtain ⟨d, ws, rfl⟩ := List.exists_cons_of_ne_nil ne
    exact sign_append negative (whole d (List.mem_cons_self ..)) _
  have point : ∀ rest, Stops ('.' :: rest) := stops_cons (by decide)
  have mark : ∀ rest, Stops ('e' :: rest) := stops_cons (by decide)
  have unpointed : ∀ rest, Number.fraction ('e' :: rest) = ([], 'e' :: rest) := fun _ => rfl
  rw [decimal?]
  cases h with
  | @positional ws fs whole fraction ne fraction_ne =>
    simp only [signed, spanDigits_append whole (point _), Number.fraction,
      spanDigits_map fraction, exponent?, Option.map_some]
    rw [if_neg (fun h => ne h.1), Int.zero_sub]
  | @scientific ws es whole exponent ne exponent_ne negative' =>
    simp only [signed, spanDigits_append whole (mark _), unpointed,
      exponent?_cons exponent exponent_ne, Option.map_some, List.append_nil]
    rw [if_neg (fun h => ne h.1), List.length_nil, Int.natCast_zero, Int.sub_zero]
  | @pointed ws fs es whole fraction exponent ne exponent_ne negative' =>
    simp only [signed, spanDigits_append whole (point _), Number.fraction,
      spanDigits_append fraction (mark _), exponent?_cons exponent exponent_ne, Option.map_some]
    rw [if_neg (fun h => ne h.1)]

/-- It is no integer. -/
theorem integer?_decimalText (negative : Bool) {cs : List Char} {ds : List Nat} {e : Int}
    (h : DecimalText cs ds e) : integer? (signText negative ++ cs) = none := by
  obtain ⟨ws, mark, rest, rfl, whole, ne, stop⟩ := exists_digits h
  obtain ⟨d, ws, rfl⟩ := List.exists_cons_of_ne_nil ne
  have signed := sign_append negative (whole d (List.mem_cons_self ..))
    (ws.map digitChar ++ mark :: rest)
  rw [integer?, List.map_cons, List.cons_append, signed]
  have read := spanDigits_append whole (stops_cons stop rest)
  rw [List.map_cons, List.cons_append] at read
  simp only [read]

/-- It starts and ends in a digit. -/
theorem DecimalText.ends {cs : List Char} {ds : List Nat} {e : Int} (h : DecimalText cs ds e) :
    StartsInDigit cs ∧ EndsInDigit cs := by
  have ends : ∀ {ds : List Nat}, AreDigits ds → ds ≠ [] →
      StartsInDigit (ds.map digitChar) ∧ EndsInDigit (ds.map digitChar) := by
    intro ds digits ne
    refine digit_ends (by simpa using ne) fun c mem => ?_
    obtain ⟨d, d_mem, rfl⟩ := List.mem_map.1 mem
    exact ⟨d, Text.asciiDigit?_digitChar (digits d d_mem)⟩
  cases h with
  | positional whole fraction ne fraction_ne =>
    exact ⟨(ends whole ne).1.append _, ((ends fraction fraction_ne).2.cons '.').append _⟩
  | scientific whole exponent ne exponent_ne negative =>
    exact ⟨(ends whole ne).1.append _,
      (((ends exponent exponent_ne).2.cons (exponentSign negative)).cons 'e').append _⟩
  | pointed whole _ exponent ne exponent_ne negative =>
    exact ⟨(ends whole ne).1.append _,
      (((((ends exponent exponent_ne).2.cons (exponentSign negative)).cons 'e').append _).cons
        '.').append _⟩

/-- A sign and a text that starts and ends in a digit have no blanks around them. -/
theorem strip_signed (negative : Bool) {cs : List Char} (starts : StartsInDigit cs)
    (ends : EndsInDigit cs) : Text.strip (signText negative ++ cs) = signText negative ++ cs := by
  obtain ⟨first, d, rest, rfl, digit⟩ := starts
  obtain ⟨last, d', front, shape, digit'⟩ := ends
  have last_solid := Text.isBlank_of_asciiDigit? digit'
  have ends : signText negative ++ first :: rest = signText negative ++ front ++ [last] := by
    rw [shape, List.append_assoc]
  cases negative with
  | true =>
    have starts : signText true ++ first :: rest = '-' :: first :: rest := rfl
    exact Text.strip_eq_self starts ends (by decide) last_solid
  | false => exact Text.strip_eq_self rfl ends (Text.isBlank_of_asciiDigit? digit) last_solid

/-! ### What is written -/

/-- A number in at least so many digits. -/
theorem exists_padded (width n : Nat) : ∃ ds, Decimal.padded width n = ds.map digitChar ∧
    AreDigits ds ∧ ds ≠ [] ∧ Decimal.value ds = n := by
  refine ⟨List.replicate (width - (Decimal.digits n).length) 0 ++ Decimal.digits n, ?_,
    (areDigits_zeros _).append (areDigits_digits n), ?_, ?_⟩
  · rw [List.map_append, List.map_replicate, Decimal.padded, Decimal.natText, List.length_map]
    rfl
  · exact List.append_ne_nil_of_right_ne_nil _ (Decimal.digits_ne_nil n)
  · rw [Decimal.value_replicate_append, Decimal.value_digits]

/-- **A text shows a decimal** if it is of the grammar and what it shows rounds to the same
number as the decimal does. -/
def Shows (cs : List Char) (ds : List Nat) (exponent : Int) : Prop :=
  ∃ es e, DecimalText cs es e ∧ ∀ negative,
    Binary64.ofDecimal negative (Decimal.value es) e =
      Binary64.ofDecimal negative (Decimal.value ds) exponent

section Layouts

variable {ds : List Nat} (digits : AreDigits ds) (ne : ds ≠ [])
include digits ne

/-- The point is in front of the digits, with zeros between them. -/
theorem shows_positional_front {point : Int} (front : point ≤ 0) :
    Shows (FloatNotation.positional (ds.map digitChar) point) ds (point - ds.length) := by
  have zero : AreDigits [0] := areDigits_zeros 1
  have text := DecimalText.positional zero
    ((areDigits_zeros (-point).toNat).append digits) (List.cons_ne_nil _ _)
    (List.append_ne_nil_of_right_ne_nil _ ne)
  rw [List.map_append, List.map_replicate] at text
  rw [FloatNotation.positional, if_pos front]
  refine ⟨_, _, text, fun negative => ?_⟩
  have exponent : -((List.replicate (-point).toNat 0 ++ ds).length : Int) =
      point - ds.length := by
    rw [List.length_append, List.length_replicate]
    omega
  rw [exponent, ← List.append_assoc, ← List.replicate_one, List.replicate_append_replicate,
    Decimal.value_replicate_append]

/-- The point is behind the digits, with zeros between them and one more zero behind it. -/
theorem shows_positional_back {point : Nat} (pos : 0 < point) (back : ds.length ≤ point) :
    Shows (FloatNotation.positional (ds.map digitChar) point) ds (point - ds.length) := by
  have zero : AreDigits [0] := areDigits_zeros 1
  have text := DecimalText.positional (digits.append (areDigits_zeros (point - ds.length))) zero
    (List.append_ne_nil_of_left_ne_nil ne _) (List.cons_ne_nil _ _)
  rw [List.map_append, List.map_replicate] at text
  rw [FloatNotation.positional, if_neg (by omega)]
  simp only [Int.toNat_natCast, ← List.map_take, ← List.map_drop]
  rw [List.drop_of_length_le back, List.take_of_length_le back, List.length_map, List.map_nil,
    if_pos rfl]
  refine ⟨_, _, text, fun negative => ?_⟩
  -- the zero behind the point is one digit more than the zeros between the digits and the point
  have exponent : -([0].length : Int) =
      (point : Int) - ds.length - ((point - ds.length + 1 : Nat) : Int) := by
    rw [List.length_singleton]
    omega
  rw [exponent, ← List.replicate_one, List.append_assoc, List.replicate_append_replicate,
    Decimal.value_append_replicate, Binary64.ofDecimal_mul_tenPow]

/-- The point is between the digits. -/
theorem shows_positional_inside {point : Nat} (pos : 0 < point) (inside : point < ds.length) :
    Shows (FloatNotation.positional (ds.map digitChar) point) ds (point - ds.length) := by
  have front_ne : ds.take point ≠ [] := by
    rw [Ne, List.take_eq_nil_iff]
    rintro (none | nil)
    · omega
    · exact ne nil
  have back_ne : ds.drop point ≠ [] := by
    rw [Ne, List.drop_eq_nil_iff]
    omega
  have text := DecimalText.positional (fun d mem => digits d (List.mem_of_mem_take mem))
    (fun d mem => digits d (List.mem_of_mem_drop mem)) front_ne back_ne
  have unfilled : point - ((ds.take point).map digitChar).length = 0 := by
    rw [List.length_map, List.length_take]
    omega
  rw [FloatNotation.positional, if_neg (by omega)]
  simp only [Int.toNat_natCast, ← List.map_take, ← List.map_drop]
  rw [unfilled, List.replicate_zero, List.append_nil, if_neg (by simpa using back_ne)]
  refine ⟨_, _, text, fun negative => ?_⟩
  have exponent : -((ds.drop point).length : Int) = (point : Int) - ds.length := by
    rw [List.length_drop]
    omega
  rw [exponent, List.take_append_drop]

/-- **The positional layout** shows the digits, wherever the point is. -/
theorem shows_positional (point : Int) :
    Shows (FloatNotation.positional (ds.map digitChar) point) ds (point - ds.length) := by
  by_cases front : point ≤ 0
  · exact shows_positional_front digits ne front
  · obtain ⟨p, rfl⟩ : ∃ p : Nat, point = p := ⟨point.toNat, by omega⟩
    rcases Nat.lt_or_ge p ds.length with inside | back
    · exact shows_positional_inside digits ne (by omega) inside
    · exact shows_positional_back digits ne (by omega) back

/-- **The layout with an exponent** shows the digits. A single digit stands without a point. -/
theorem shows_scientific (width : Nat) (exponent : Int) :
    Shows (FloatNotation.scientific width (ds.map digitChar) exponent) ds
      (exponent + 1 - ds.length) := by
  obtain ⟨es, padded, below, es_ne, value⟩ := exists_padded width exponent.natAbs
  have signed : (if decide (exponent < 0) then -(Decimal.value es : Int) else Decimal.value es) =
      exponent := by
    simp only [value, decide_eq_true_eq]
    split <;> omega
  have mark : (if exponent < 0 then '-' else '+') = exponentSign (decide (exponent < 0)) := by
    simp only [exponentSign, decide_eq_true_eq]
  unfold FloatNotation.scientific
  simp only [padded, mark]
  obtain ⟨d, rest, rfl⟩ := List.exists_cons_of_ne_nil ne
  cases rest with
  | nil =>
    have text := DecimalText.scientific digits below ne es_ne (decide (exponent < 0))
    rw [signed] at text
    refine ⟨_, _, text, fun negative => ?_⟩
    rw [List.length_singleton, Int.natCast_one, Int.add_sub_cancel]
  | cons next rest =>
    have first : AreDigits [d] := List.forall_mem_singleton.2 (digits d (List.mem_cons_self ..))
    have others : AreDigits (next :: rest) := (List.forall_mem_cons.1 digits).2
    have text := DecimalText.pointed first others below (List.cons_ne_nil _ _) es_ne
      (decide (exponent < 0))
    rw [signed] at text
    refine ⟨_, _, text, fun negative => ?_⟩
    have last : exponent + 1 - ((d :: next :: rest).length : Int) =
        exponent - (next :: rest).length := by
      simp only [List.length_cons]
      omega
    rw [last, List.singleton_append]

end Layouts

end Number

namespace FloatNotation

open Number

/-- **What is written for a finite number** is a sign and a text of the grammar, and the decimal
that it shows rounds to the number. -/
theorem exists_decimalText (f : FloatNotation) (negative : Bool) (x : Binary64.Magnitude) :
    ∃ cs ds e, f.text (.finite negative x) = signText negative ++ cs ∧ DecimalText cs ds e ∧
      Binary64.ofDecimal negative (Decimal.value ds) e = .finite negative x := by
  have digits := areDigits_digits (Binary64.shortest x).digits
  have ne := Decimal.digits_ne_nil (Binary64.shortest x).digits
  have rounds := Binary64.ofDecimal_shortest negative x
  rw [← Decimal.value_digits (Binary64.shortest x).digits] at rounds
  simp only [text, Decimal.natText, List.length_map]
  generalize Decimal.digits (Binary64.shortest x).digits = ds at *
  -- of the exponent only the place of the first digit is used, by either layout
  obtain ⟨leading, exponent⟩ : ∃ leading, (Binary64.shortest x).exponent =
      leading + 1 - (ds.length : Int) := ⟨(Binary64.shortest x).exponent + ds.length - 1, by omega⟩
  rw [exponent] at rounds ⊢
  rw [show leading + 1 - (ds.length : Int) + ds.length - 1 = leading by omega]
  by_cases positional : f.least ≤ leading ∧ leading < f.limit
  · rw [if_pos positional]
    obtain ⟨es, e, text, same⟩ := shows_positional digits ne (leading + 1)
    exact ⟨_, es, e, rfl, text, (same negative).trans rounds⟩
  · rw [if_neg positional]
    obtain ⟨es, e, text, same⟩ := shows_scientific digits ne f.exponentWidth leading
    exact ⟨_, es, e, rfl, text, (same negative).trans rounds⟩

end FloatNotation

namespace Number

/-! ### Reading back -/

/-- **A number that can be read back**: a finite one or an integer whose digits are not too
many. -/
def IsLegible : Number → Prop
  | .int n => (Decimal.digits n.natAbs).length ≤ integerDigits
  | .float x => x.isFinite = true

/-- An integer is read back. -/
theorem integer?_natText (negative : Bool) {n : Nat}
    (short : (Decimal.digits n).length ≤ integerDigits) :
    integer? (signText negative ++ Decimal.natText n) =
      some (.int (if negative then -(n : Int) else n)) := by
  have digits := areDigits_digits n
  have ne := Decimal.digits_ne_nil n
  have read := spanDigits_map digits
  have value := Decimal.value_digits n
  rw [Decimal.natText]
  -- that they are digits, and that there are some, is all that the reader asks for
  generalize Decimal.digits n = ds at *
  obtain ⟨d, ds, rfl⟩ := List.exists_cons_of_ne_nil ne
  have signed := sign_append negative (digits d (List.mem_cons_self ..)) (ds.map Decimal.digitChar)
  rw [List.map_cons] at read ⊢
  rw [integer?, signed]
  simp only [read]
  rw [if_neg (by simpa using short), value]

theorem intText_eq (n : Int) :
    Decimal.intText n = signText (decide (n < 0)) ++ Decimal.natText n.natAbs := by
  cases n with
  | ofNat n =>
    have sign : ¬Int.ofNat n < 0 := Int.not_lt.2 (Int.natCast_nonneg n)
    rw [decide_eq_false sign]
    rfl
  | negSucc n =>
    rw [decide_eq_true (Int.negSucc_lt_zero n)]
    rfl

/-- **The text of a number is read back** as that number. -/
theorem ofText?_text {n : Number} (legible : n.IsLegible) :
    ofText? (Document.text (.number n)) = some n := by
  rw [Document.text, ofText?, String.toList_ofList, Document.chars]
  cases n with
  | int n =>
    have ends := (numeral_natText n.natAbs).ends (List.length_pos_iff.2 (Decimal.digits_ne_nil _))
    rw [textIn, intText_eq, strip_signed _ ends.1 ends.2, integer?_natText _ legible,
      Option.some_or]
    simp only [decide_eq_true_eq]
    congr 2
    split <;> omega
  | float x =>
    cases x with
    | nan => cases legible
    | infinite negative => cases legible
    | finite negative x =>
      obtain ⟨cs, ds, e, shape, text, rounds⟩ := jsonNotation.exists_decimalText negative x
      rw [textIn, shape, strip_signed _ text.ends.1 text.ends.2, integer?_decimalText _ text,
        Option.none_or, rounded?, decimal?_decimalText _ text, rounds]
      rfl

end Number

end DocumentFilter
