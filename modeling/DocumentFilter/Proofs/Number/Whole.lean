import DocumentFilter.Proofs.Number.Nearest
import DocumentFilter.Proofs.Number.Reading

/-!
# The text of an integer

A text that denotes an integer, `DocumentFilter.Number.IntegerText`, is a sign and digits with
blanks around them, any number of digits and any of them zeros in front. Up to 4300 digits the
reader takes it for that integer. A longer one is no integer to it, but it fits the other form
that a number can have, and so it is rounded like a text with a point.

Rounding is exact for the integers of 53 bits with zeros behind them, and beyond the finite
numbers the text is no number at all. Everything else is read as another integer than it
denotes: an odd one of more than 53 bits, for instance, with zeros enough in front of it.

* `DocumentFilter.Number.IntegerText`: the texts, with their lengths and integers;
* `DocumentFilter.Number.ofText?_short`, `DocumentFilter.Number.ofText?_long`: the two readings;
* `DocumentFilter.Number.ofText?_integerText`: what such a text is read as, and where that is
  the integer which it denotes.
-/

namespace DocumentFilter

/-! ### Blanks at the ends -/

namespace Text

/-- Blanks in front are dropped. -/
theorem strip_append_left {front : List Char} (blank : ∀ c ∈ front, isBlank c) (cs : List Char) :
    strip (front ++ cs) = strip cs := by
  rw [strip, List.dropWhile_append_of_pos blank, strip]

/-- Blanks behind a text that starts in no blank are dropped. -/
theorem strip_append_right {c : Char} (solid : isBlank c = false) (cs : List Char)
    {back : List Char} (blank : ∀ c ∈ back, isBlank c) :
    strip (c :: cs ++ back) = strip (c :: cs) := by
  have kept : ∀ rest, (c :: rest).dropWhile isBlank = c :: rest := fun rest =>
    List.dropWhile_cons_of_neg (by simp [solid])
  rw [strip, List.cons_append, kept, strip, kept, stripRight, ← List.cons_append,
    List.reverse_append, List.dropWhile_append_of_pos (by simpa using blank), stripRight]

end Text

namespace Number

/-! ### The texts of an integer -/

/-- A sign that may be missing, and whether it is negative. -/
inductive SignText : List Char → Bool → Prop
  | missing : SignText [] false
  | plus : SignText ['+'] false
  | minus : SignText ['-'] true

/-- **A text of an integer**, with the number of its digits: a sign and digits with blanks
around them. -/
inductive IntegerText : String → Nat → Int → Prop
  | intro {front sign digits back : List Char} {negative : Bool} {count n : Nat}
      (front_blank : ∀ c ∈ front, Text.isBlank c) (signed : SignText sign negative)
      (numeral : Numeral count digits n) (pos : 0 < count)
      (back_blank : ∀ c ∈ back, Text.isBlank c) :
      IntegerText (String.ofList (front ++ (sign ++ digits ++ back))) count
        (if negative then -(n : Int) else n)

variable {negative : Bool} {front signs digits back : List Char} {count n : Nat}

/-- The blanks are dropped, and nothing else is. -/
theorem strip_integerText (front_blank : ∀ c ∈ front, Text.isBlank c)
    (signed : SignText signs negative) (numeral : Numeral count digits n) (pos : 0 < count)
    (back_blank : ∀ c ∈ back, Text.isBlank c) :
    Text.strip (front ++ (signs ++ digits ++ back)) = signs ++ digits := by
  obtain ⟨⟨c, d, rest, starts, first⟩, ends⟩ := numeral.ends pos
  obtain ⟨last, d', others, shape, digit⟩ := ends.append signs
  have last_solid := Text.isBlank_of_asciiDigit? digit
  have solid : ∃ first rest, signs ++ digits = first :: rest ∧ Text.isBlank first = false := by
    cases signed with
    | missing => exact ⟨c, rest, starts, Text.isBlank_of_asciiDigit? first⟩
    | plus => exact ⟨'+', digits, rfl, by decide⟩
    | minus => exact ⟨'-', digits, rfl, by decide⟩
  obtain ⟨first, rest, begins, first_solid⟩ := solid
  rw [Text.strip_append_left front_blank, begins,
    Text.strip_append_right first_solid rest back_blank, ← begins]
  exact Text.strip_eq_self begins shape first_solid last_solid

/-- The sign in front of digits is read. -/
theorem sign_signText (signed : SignText signs negative) (numeral : Numeral count digits n)
    (pos : 0 < count) : sign (signs ++ digits) = (negative, digits) := by
  obtain ⟨⟨c, d, rest, starts, first⟩, -⟩ := numeral.ends pos
  cases signed with
  | missing => rw [List.nil_append, starts, sign_of_digit first]
  | plus => rfl
  | minus => rfl

/-- The digits of a numeral are read to the end. -/
theorem spanDigits_numeral (numeral : Numeral count digits n) :
    ∃ ds, spanDigits digits = (ds, []) ∧ ds.length = count ∧ Decimal.value ds = n := by
  obtain ⟨length, ds, read, value⟩ := numeral
  have each := forall₂_of_mapM read
  refine ⟨ds, ?_, each.length_eq.symm.trans length, value⟩
  clear read value length
  induction each with
  | nil => rfl
  | cons digit _ ih => rw [spanDigits, Text.digit?_of_asciiDigit? digit, ih]

/-- The text of a number in at least so many digits. -/
theorem integerText_padded {width n : Nat} (lt : n < 10 ^ width) (pos : 0 < width) :
    IntegerText (String.ofList (Decimal.padded width n)) width n := by
  have blank : ∀ c ∈ ([] : List Char), Text.isBlank c := by simp
  simpa using IntegerText.intro blank .missing (numeral_padded lt pos) pos blank

/-! ### The two readings -/

/-- **Up to 4300 digits** are read as the integer. -/
theorem integer?_short (signed : SignText signs negative) (numeral : Numeral count digits n)
    (pos : 0 < count) (short : count ≤ 4300) :
    integer? (signs ++ digits) = some (.int (if negative then -(n : Int) else n)) := by
  obtain ⟨ds, read, length, value⟩ := spanDigits_numeral numeral
  have ne : ds ≠ [] := List.ne_nil_of_length_pos (by omega)
  rw [integer?, sign_signText signed numeral pos]
  have taken : ¬(ds = [] ∨ integerDigits < ds.length) := by
    rw [integerDigits]
    exact fun refused => refused.elim ne (by omega)
  simp only [read, if_neg taken, value]

/-- More of them are not. -/
theorem integer?_long (signed : SignText signs negative) (numeral : Numeral count digits n)
    (long : 4300 < count) : integer? (signs ++ digits) = none := by
  obtain ⟨ds, read, length, -⟩ := spanDigits_numeral numeral
  rw [integer?, sign_signText signed numeral (by omega)]
  have refused : ds = [] ∨ integerDigits < ds.length := .inr (by rw [integerDigits]; omega)
  simp only [read, if_pos refused]

/-- Any number of digits is a decimal without a fraction and an exponent. -/
theorem decimal?_integerText (signed : SignText signs negative)
    (numeral : Numeral count digits n) (pos : 0 < count) :
    decimal? (signs ++ digits) = some (.ofRat negative n) := by
  obtain ⟨ds, read, length, value⟩ := spanDigits_numeral numeral
  have ne : ds ≠ [] := List.ne_nil_of_length_pos (by omega)
  rw [decimal?, sign_signText signed numeral pos]
  simp only [read, fraction, exponent?, List.append_nil, Option.map_some, List.length_nil]
  rw [if_neg (fun h => ne h.1), value, Nat.cast_zero, sub_zero, Binary64.ofDecimal_natCast]

/-- **Up to 4300 digits** are read as the integer. -/
theorem ofText?_short {text : String} {n : Int} (h : IntegerText text count n)
    (short : count ≤ 4300) : ofText? text = some (.int n) := by
  obtain ⟨front_blank, signed, numeral, pos, back_blank⟩ := h
  rw [ofText?, String.toList_ofList, strip_integerText front_blank signed numeral pos back_blank,
    integer?_short signed numeral pos short, Option.some_or]

/-- More of them are rounded. -/
theorem ofText?_rounded (front_blank : ∀ c ∈ front, Text.isBlank c)
    (signed : SignText signs negative) (numeral : Numeral count digits n) (long : 4300 < count)
    (back_blank : ∀ c ∈ back, Text.isBlank c) :
    ofText? (String.ofList (front ++ (signs ++ digits ++ back))) =
      if (Binary64.ofRat negative n).isFinite then some (.float (.ofRat negative n)) else none := by
  have pos : 0 < count := by omega
  rw [ofText?, String.toList_ofList, strip_integerText front_blank signed numeral pos back_blank,
    integer?_long signed numeral long, Option.none_or, rounded?,
    decimal?_integerText signed numeral pos]

/-- **More than 4300 digits** are read as the nearest number, if that is finite. -/
theorem ofText?_long {text : String} {n : Int} (h : IntegerText text count n)
    (long : 4300 < count) :
    (Binary64.overflow ≤ n.natAbs → ofText? text = none) ∧
      (n.natAbs < Binary64.overflow → ∃ x, ofText? text = some (.float x) ∧ x.IsNearest n) := by
  obtain ⟨front_blank, signed, numeral, -, back_blank⟩ := h
  rename_i negative n
  have size : (if negative then -(n : Int) else n).natAbs = n := by split <;> omega
  have value : ((if negative then -(n : Int) else n : Int) : Rat) =
      if negative then -(n : Rat) else n := by split <;> push_cast <;> rfl
  rw [ofText?_rounded front_blank signed numeral long back_blank, size, value]
  constructor
  · intro large
    have infinite : (Binary64.ofRat negative n).isFinite = false := by
      rw [Binary64.ofRat_of_overflow negative (by exact_mod_cast large)]
      rfl
    rw [infinite, if_neg Bool.false_ne_true]
  · intro small
    have nonneg : (0 : Rat) ≤ n := Nat.cast_nonneg n
    have bound : (n : Rat) < Binary64.overflow := by exact_mod_cast small
    obtain ⟨x, rounds, -⟩ := Binary64.exists_ofRat negative nonneg bound
    have finite : (Binary64.ofRat negative n).isFinite = true := by rw [rounds, Binary64.isFinite]
    exact ⟨_, if_pos finite, Binary64.isNearest_ofRat negative nonneg bound⟩

/-! ### Where the integer is kept -/

/-- The rational of a finite number is its place. -/
theorem place?_of_toRat? {x : Binary64} {r : Rat} (value : x.toRat? = some r) :
    place? (.float x) = some (.rational r) := by
  cases x with
  | nan => cases value
  | infinite negative => cases value
  | finite negative x => cases negative <;> exact congrArg (Option.map Place.rational) value

/-- A finite number is the integer that it denotes up to the sign of its magnitude. -/
theorem exists_toRat?_iff {n : Int} :
    (∃ x : Binary64, x.toRat? = some (n : Rat)) ↔
      ∃ x : Binary64.Magnitude, x.value = (n.natAbs : Rat) := by
  have size : (n.natAbs : Rat) = |(n : Rat)| := by rw [Nat.cast_natAbs, Int.cast_abs]
  rw [size]
  constructor
  · rintro ⟨x, value⟩
    cases x with
    | nan => cases value
    | infinite negative => cases value
    | finite negative x =>
      refine ⟨x, ?_⟩
      rw [← Option.some.inj value, ← abs_of_nonneg x.value_nonneg]
      cases negative <;> simp
  · rintro ⟨x, value⟩
    refine ⟨.finite (n < 0) x, congrArg some ?_⟩
    rw [value]
    rcases lt_or_ge n 0 with below | above
    · have below' : (n : Rat) < 0 := by exact_mod_cast below
      rw [decide_eq_true below, if_pos rfl, abs_of_neg below', neg_neg]
    · have above' : (0 : Rat) ≤ n := by exact_mod_cast above
      rw [decide_eq_false above.not_gt, if_neg Bool.false_ne_true, abs_of_nonneg above']

/-- The nearest number is the integer itself exactly if that has 53 bits and zeros behind. -/
theorem place?_of_isNearest {x : Binary64} {n : Int} (nearest : x.IsNearest n)
    (small : n.natAbs < Binary64.overflow) :
    place? (.float x) = some (.rational n) ↔ ∃ s e, s < 2 ^ 53 ∧ n.natAbs = s * 2 ^ e := by
  obtain ⟨r, value, least⟩ := nearest
  rw [place?_of_toRat? value, Option.some.injEq, Place.rational.injEq,
    ← Binary64.Magnitude.exists_value_eq_natCast_iff small, ← exists_toRat?_iff]
  constructor
  · rintro rfl
    exact ⟨x, value⟩
  · rintro ⟨y, exact_⟩
    have zero := least y n exact_
    rw [sub_self, abs_zero, abs_nonpos_iff, sub_eq_zero] at zero
    exact zero.symm

/-- A number of 16 digits is one of 4316 with zeros in front. -/
theorem lt_pow_4316 : 9007199254740993 < 10 ^ 4316 :=
  (by decide : 9007199254740993 < 10 ^ 16).trans_le (pow_le_pow_right₀ (by decide) (by decide))

/-- **What the text of an integer is read as.** -/
theorem ofText?_integerText {text : String} {n : Int} (h : IntegerText text count n) :
    (count ≤ 4300 → ofText? text = some (.int n)) ∧
      (4300 < count → Binary64.overflow ≤ n.natAbs → ofText? text = none) ∧
      (4300 < count → n.natAbs < Binary64.overflow →
        ∃ x, ofText? text = some (.float x) ∧ x.IsNearest n) ∧
      ((∀ m, ofText? text = some m → m.place? = some (.rational n)) ↔
        count ≤ 4300 ∨ Binary64.overflow ≤ n.natAbs ∨
          ∃ s e, s < 2 ^ 53 ∧ n.natAbs = s * 2 ^ e) := by
  refine ⟨ofText?_short h, fun long => (ofText?_long h long).1,
    fun long => (ofText?_long h long).2, ?_⟩
  rcases le_or_gt count 4300 with short | long
  · simp only [ofText?_short h short, short, true_or, iff_true, Option.some.injEq]
    rintro m rfl
    rfl
  · obtain ⟨beyond, within⟩ := ofText?_long h long
    rcases le_or_gt Binary64.overflow n.natAbs with large | small
    · simp [beyond large, large]
    · obtain ⟨x, read, nearest⟩ := within small
      simp only [read, Option.some.injEq, forall_eq', long.not_ge, small.not_ge, false_or]
      exact place?_of_isNearest nearest small

/-- The least odd integer of more than 53 bits, with 4300 zeros in front of it. -/
theorem ofText?_integerText_zeros :
    IntegerText (String.ofList (Decimal.padded 4316 9007199254740993)) 4316 9007199254740993 ∧
      ∃ x, ofText? (String.ofList (Decimal.padded 4316 9007199254740993)) = some (.float x) ∧
        x.IsNearest (9007199254740993 : Int) :=
  have text := integerText_padded lt_pow_4316 (by decide)
  ⟨text, (ofText?_integerText text).2.2.1 (by decide) (by decide +kernel)⟩

/-- **It is read as another integer**, the even one before it. -/
theorem ofText?_zeros_other :
    IntegerText (String.ofList (Decimal.padded 4316 9007199254740993)) 4316 9007199254740993 ∧
      ∃ m, ofText? (String.ofList (Decimal.padded 4316 9007199254740993)) = some m ∧
        m.place? = some (.rational 9007199254740992) := by
  have blank : ∀ c ∈ ([] : List Char), Text.isBlank c := by simp
  have read := ofText?_rounded blank .missing (numeral_padded lt_pow_4316 (by decide))
    (by decide) blank
  have rounds : Binary64.ofRat false (9007199254740993 : Nat) =
      .finite false ⟨4503599627370496, 1, by decide⟩ := by decide +kernel
  rw [List.nil_append, List.append_nil, List.nil_append, rounds] at read
  refine ⟨integerText_padded lt_pow_4316 (by decide), _, read.trans (if_pos rfl), ?_⟩
  decide +kernel

end Number

end DocumentFilter
