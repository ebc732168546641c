import DocumentFilter.Proofs.Document.Lexeme
import DocumentFilter.Proofs.Time.Iso
import DocumentFilter.Yaml.Value

/-!
# What YAML makes of the scalars of a JSON text

The words for the constants of JSON and the characters of its strings mean the same in YAML, but for
the codes of two halves, which YAML does not put together. Numbers are told apart from texts by
their look alone (`DocumentFilter.Yaml.Tag.ofPlain`), and there YAML asks for more than JSON: an
exponent must have a sign and stand behind a fraction (`DocumentFilter.Json.Literal.isYaml`). A
number without that, `NaN` and the infinities are texts, which keep the characters that are written.

Where YAML sees a number, it is the number that JSON sees
(`DocumentFilter.Json.Literal.scalarValue_chars`), although a sign is dealt with in another place
and the letter of an exponent is made small first.

* `DocumentFilter.Json.Scalar.yaml`: the value of a scalar;
* `DocumentFilter.Json.Literal.ofPlain_chars`: which numbers are numbers in YAML;
* `DocumentFilter.Json.Scalar.scalarValue_text`: **the value of a scalar** is the one that YAML
  constructs.
-/

namespace DocumentFilter

namespace Json

open Decimal (digitChar)
open Number (AreDigits DecimalText signText)
open Yaml (Tag)

/-! ### Characters of words and numbers -/

/-- A character of a scalar that is no string. -/
def isWordChar (c : Char) : Bool :=
  isDigit c || ('A' ≤ c && c ≤ 'Z') || ('a' ≤ c && c ≤ 'z') || c = '.' || c = '-' || c = '+'

theorem isDigit_of_digits {ds : List Nat} (digits : AreDigits ds) :
    ∀ c ∈ ds.map digitChar, isDigit c = true := by
  intro c mem
  obtain ⟨d, d_mem, rfl⟩ := List.mem_map.1 mem
  exact isDigit_digitChar (digits d d_mem)

theorem isWordChar_of_digits {ds : List Nat} (digits : AreDigits ds) :
    ∀ c ∈ ds.map digitChar, isWordChar c = true := by
  intro c mem
  simp [isWordChar, isDigit_of_digits digits c mem]

theorem isWordChar_of_signText {negative : Bool} :
    ∀ c ∈ signText negative, isWordChar c = true := by
  cases negative with
  | true => exact List.forall_mem_singleton.2 rfl
  | false => exact fun _ mem => absurd mem List.not_mem_nil

namespace Exponent

theorem isWordChar_of_mem {e : Exponent} : ∀ c ∈ e.chars, isWordChar c = true := by
  rw [chars]
  refine List.forall_mem_cons.2 ⟨?_, List.forall_mem_append.2 ⟨?_, isWordChar_of_digits e.below⟩⟩
  · cases e.upper <;> rfl
  · rcases e.sign with _ | negative
    · exact fun _ mem => absurd mem List.not_mem_nil
    · cases negative with
      | true => exact List.forall_mem_singleton.2 rfl
      | false => exact List.forall_mem_singleton.2 rfl

end Exponent

namespace Literal

variable (l : Literal)

/-- What comes behind the whole part. -/
def tail : List Char :=
  fractionChars l.fraction ++ exponentChars l.exponent

theorem isWordChar_of_mem : ∀ c ∈ l.chars, isWordChar c = true := by
  have fraction : ∀ ds, AreDigits ds → ∀ c ∈ fractionChars ds, isWordChar c = true := by
    intro ds below
    rcases ds with _ | ⟨d, ds⟩
    · exact fun _ mem => absurd mem List.not_mem_nil
    · exact List.forall_mem_cons.2 ⟨rfl, isWordChar_of_digits below⟩
  have exponent : ∀ c ∈ exponentChars l.exponent, isWordChar c = true := by
    rcases l.exponent with _ | e
    · exact fun _ mem => absurd mem List.not_mem_nil
    · exact e.isWordChar_of_mem
  exact List.forall_mem_append.2 ⟨isWordChar_of_signText, List.forall_mem_append.2
    ⟨isWordChar_of_digits l.whole_below, List.forall_mem_append.2
      ⟨fraction _ l.fraction_below, exponent⟩⟩⟩

theorem unsignedChars_eq : l.unsignedChars = l.whole.map digitChar ++ l.tail := rfl

/-- Behind the sign there is a digit. -/
theorem exists_unsignedChars :
    ∃ d rest, d < 10 ∧ l.unsignedChars = digitChar d :: rest := by
  obtain ⟨d, ds, whole⟩ := List.exists_cons_of_ne_nil l.ne
  refine ⟨d, ds.map digitChar ++ l.tail, l.whole_below d (whole ▸ List.mem_cons_self ..), ?_⟩
  rw [unsignedChars_eq, whole, List.map_cons, List.cons_append]

/-- A number starts with a digit or a minus. -/
theorem exists_chars : ∃ c rest, l.chars = c :: rest ∧ (isDigit c = true ∨ c = '-') := by
  obtain ⟨d, rest, lt, shape⟩ := l.exists_unsignedChars
  rw [chars, shape]
  cases l.negative with
  | true => exact ⟨'-', _, rfl, .inr rfl⟩
  | false => exact ⟨digitChar d, rest, rfl, .inl (isDigit_digitChar lt)⟩

/-! ### The look of a number -/

/-- **A number that is one in YAML**: it has no exponent, or one with a sign behind a fraction. -/
def isYaml : Bool :=
  match l.exponent with
  | none => true
  | some e => !l.fraction.isEmpty && e.sign.isSome

/-- What starts a fraction or an exponent. -/
def Marked (tail : List Char) : Prop :=
  ∀ c rest, tail = c :: rest → c ∈ ['.', 'e', 'E']

theorem marked_exponentChars : ∀ e, Marked (exponentChars e)
  | none => fun _ _ shape => nomatch shape
  | some e => by
    rintro c rest shape
    obtain ⟨rfl, -⟩ := List.cons.inj shape
    cases e.upper <;> decide

theorem marked_tail : Marked l.tail := by
  rw [tail]
  rcases l.fraction with _ | ⟨d, ds⟩
  · exact marked_exponentChars l.exponent
  · rintro c rest ⟨⟩
    decide

/-- No word with another start is a number. -/
theorem ne_chars {word : List Char}
    (start : (word.head?.all fun c => !isDigit c && c != '-') = true) : word ≠ l.chars := by
  obtain ⟨c, rest, shape, first⟩ := l.exists_chars
  rintro rfl
  rw [shape, List.head?_cons, Option.all_some] at start
  rcases first with digit | rfl
  · rw [digit] at start
    cases start
  · cases start

theorem ne_unsignedChars {word : List Char}
    (start : (word.head?.all fun c => !isDigit c) = true) : word ≠ l.unsignedChars := by
  obtain ⟨d, rest, lt, shape⟩ := l.exists_unsignedChars
  rintro rfl
  rw [shape, List.head?_cons, Option.all_some, isDigit_digitChar lt] at start
  cases start

/-- No word with another start is a number, whatever the words. -/
theorem any_word {words : List String}
    (start : (words.all fun word => word.toList.head?.all fun c => !isDigit c && c != '-') = true) :
    (words.any fun word => word.toList = l.chars) = false := by
  refine List.any_eq_false.2 fun word mem => ?_
  simpa using l.ne_chars (List.all_eq_true.1 start word mem)

/-- A digit is no sign. -/
theorem dropSign_digitChar {d : Nat} (lt : d < 10) (rest : List Char) :
    Tag.dropSign (digitChar d :: rest) = digitChar d :: rest := by
  have minus : digitChar d ≠ '-' := Text.ne_of_asciiDigit? (Text.asciiDigit?_digitChar lt) rfl
  have plus : digitChar d ≠ '+' := Text.ne_of_asciiDigit? (Text.asciiDigit?_digitChar lt) rfl
  rw [Tag.dropSign]
  · exact fun _ same => minus (List.cons.inj same).1
  · exact fun _ same => plus (List.cons.inj same).1

theorem dropSign_chars : Tag.dropSign l.chars = l.unsignedChars := by
  obtain ⟨d, rest, lt, shape⟩ := l.exists_unsignedChars
  rw [chars, shape]
  cases l.negative with
  | true => rfl
  | false => exact dropSign_digitChar lt rest

/-- Digits are passed over up to something else. -/
theorem dropWhile_isGrouped {ds : List Nat} (digits : AreDigits ds) {tail : List Char}
    (stop : (tail.head?.all fun c => !Tag.isGrouped c) = true) :
    (ds.map digitChar ++ tail).dropWhile Tag.isGrouped = tail := by
  have all : ∀ c ∈ ds.map digitChar, Tag.isGrouped c = true := by
    intro c mem
    exact Bool.or_eq_true_iff.2 (.inl (isDigit_of_digits digits c mem))
  rw [List.dropWhile_append_of_pos all]
  rcases tail with _ | ⟨c, rest⟩
  · rfl
  · exact List.dropWhile_cons_of_neg (by simpa using stop)

/-- A fraction or an exponent is something else. -/
theorem Marked.stop {tail : List Char} (marked : Marked tail) :
    (tail.head?.all fun c => !Tag.isGrouped c) = true := by
  rcases tail with _ | ⟨c, rest⟩
  · rfl
  · have marks : ∀ c ∈ ['.', 'e', 'E'], (!Tag.isGrouped c) = true :=
      List.all_iff_forall_prop.1 (by decide)
    exact marks c (marked c rest rfl)

theorem isGroupedThen_unsignedChars (ending : List Char → Bool) :
    Tag.isGroupedThen ending l.unsignedChars = ending l.tail := by
  obtain ⟨d, ds, whole⟩ := List.exists_cons_of_ne_nil l.ne
  obtain ⟨lt, others⟩ := List.forall_mem_cons.1 (whole ▸ l.whole_below)
  rw [unsignedChars_eq, whole, List.map_cons, List.cons_append, Tag.isGroupedThen,
    dropWhile_isGrouped others l.marked_tail.stop]
  exact Bool.and_eq_right_iff_imp.2 fun _ => isDigit_digitChar lt

/-- **An exponent has a sign** in YAML. -/
theorem isExponent_exponentChars (e : Option Exponent) :
    Tag.isExponent (exponentChars e) = e.all (·.sign.isSome) := by
  rcases e with _ | e
  · rfl
  have digits : (e.digits.map digitChar).all Tag.isDigit = true :=
    List.all_eq_true.2 (isDigit_of_digits e.below)
  obtain ⟨d, ds, shape⟩ := List.exists_cons_of_ne_nil e.ne
  rw [exponentChars, Exponent.chars, Option.all_some]
  rcases e.sign with _ | negative
  · have minus : digitChar d ≠ '-' :=
      Text.ne_of_asciiDigit?
        (Text.asciiDigit?_digitChar (e.below d (shape ▸ List.mem_cons_self ..))) rfl
    have plus : digitChar d ≠ '+' :=
      Text.ne_of_asciiDigit?
        (Text.asciiDigit?_digitChar (e.below d (shape ▸ List.mem_cons_self ..))) rfl
    rw [shape, Exponent.signChars, List.nil_append, List.map_cons, Tag.isExponent]
    simp [minus, plus]
  · rw [Exponent.signChars, List.singleton_append, Tag.isExponent, Tag.isSome, digits, shape]
    cases negative with
    | true => simp [Number.exponentSign]
    | false => simp [Number.exponentSign]

/-- A fraction is a point, digits and an exponent as YAML has it. -/
theorem isFraction_tail : Tag.isFraction Tag.isExponent l.tail =
    (!l.fraction.isEmpty && l.exponent.all (·.sign.isSome)) := by
  have below := l.fraction_below
  have marked := marked_exponentChars l.exponent
  rw [tail, ← isExponent_exponentChars]
  generalize l.fraction = fs at *
  rcases fs with _ | ⟨d, ds⟩
  · rcases l.exponent with _ | e
    · rfl
    · cases shape : e.upper with
      | true => simp [fractionChars, exponentChars, Exponent.chars, shape, Tag.isFraction]
      | false => simp [fractionChars, exponentChars, Exponent.chars, shape, Tag.isFraction]
  · rw [fractionChars, List.cons_append, Tag.isFraction, dropWhile_isGrouped below marked.stop]
    rfl

/-- There are no parts of sixty. -/
theorem isSexagesimal_tail (ending : List Char → Bool) :
    Tag.isSexagesimal ending l.tail = false := by
  have marked := l.marked_tail
  unfold Tag.isSexagesimal
  split
  · rename_i shape
    exact absurd (marked _ _ shape) (by decide)
  · rename_i shape
    exact absurd (marked _ _ shape) (by decide)
  · rfl

/-- **A number with a point** is one if its exponent has a sign. -/
theorem looksFloat_chars :
    Tag.looksFloat l.chars = (!l.fraction.isEmpty && l.exponent.all (·.sign.isSome)) := by
  have infinite :
      [".inf".toList, ".Inf".toList, ".INF".toList].contains l.unsignedChars = false := by
    have start : ∀ word ∈ [".inf".toList, ".Inf".toList, ".INF".toList],
        (word.head?.all fun c => !isDigit c) = true := List.all_eq_true.1 rfl
    refine Bool.eq_false_iff.2 fun mem => ?_
    exact l.ne_unsignedChars (start _ (List.contains_iff_mem.1 mem)) rfl
  have none : [".nan".toList, ".NaN".toList, ".NAN".toList].contains l.chars = false := by
    have start : ∀ word ∈ [".nan".toList, ".NaN".toList, ".NAN".toList],
        (word.head?.all fun c => !isDigit c && c != '-') = true := List.all_eq_true.1 rfl
    refine Bool.eq_false_iff.2 fun mem => ?_
    exact l.ne_chars (start _ (List.contains_iff_mem.1 mem)) rfl
  have pointed : ∀ rest, l.chars ≠ '.' :: rest := fun rest => (l.ne_chars rfl).symm
  rw [Tag.looksFloat]
  · simp only [dropSign_chars, isGroupedThen_unsignedChars, isSexagesimal_tail, isFraction_tail,
      infinite, none, Bool.or_false]
  · exact pointed

/-- A zero in front is all of the whole part. -/
theorem tail_of_zero {rest : List Char} (shape : l.unsignedChars = '0' :: rest) :
    rest = l.tail := by
  obtain ⟨d, ds, whole⟩ := List.exists_cons_of_ne_nil l.ne
  have zero : ∀ d < 10, digitChar d = '0' → d = 0 := by decide
  rw [unsignedChars_eq, whole, List.map_cons, List.cons_append] at shape
  obtain ⟨first, rfl⟩ := List.cons.inj shape
  obtain rfl := zero d (l.whole_below d (whole ▸ List.mem_cons_self ..)) first
  rw [l.unpadded ds whole]
  rfl

/-- **A number without a point** is an integer if it has no exponent. -/
theorem looksInt_chars :
    Tag.looksInt l.chars = (l.fraction.isEmpty && l.exponent.isNone) := by
  have nothing : l.tail.isEmpty = (l.fraction.isEmpty && l.exponent.isNone) := by
    rw [tail]
    rcases l.fraction with _ | ⟨d, ds⟩
    · rcases l.exponent with _ | e
      · rfl
      · rfl
    · rfl
  have marked := l.marked_tail
  rw [Tag.looksInt, dropSign_chars, ← nothing]
  split
  · rename_i shape
    obtain ⟨d, rest, -, more⟩ := l.exists_unsignedChars
    rw [shape] at more
    cases more
  · rename_i shape
    exact absurd (marked _ _ (l.tail_of_zero shape).symm) (by decide)
  · rename_i shape
    exact absurd (marked _ _ (l.tail_of_zero shape).symm) (by decide)
  · rename_i shape
    rw [l.tail_of_zero shape]
    generalize l.tail = tail at marked
    rcases tail with _ | ⟨c, rest⟩
    · rfl
    · have marks : ∀ c ∈ ['.', 'e', 'E'], (Tag.isDigitTo '7' c || decide (c = '_')) = false :=
        List.all_iff_forall_prop.1 (by decide)
      rw [List.all_cons, marks c (marked c rest rfl)]
      rfl
  · rw [isGroupedThen_unsignedChars, isSexagesimal_tail, Bool.or_false]

/-- No number has a minus behind nothing but digits. -/
theorem chars_ne_append {ds : List Nat} (digits : AreDigits ds) (ne : ds ≠ []) (rest : List Char) :
    l.chars ≠ ds.map digitChar ++ '-' :: rest := by
  intro shape
  obtain ⟨d, others, rfl⟩ := List.exists_cons_of_ne_nil ne
  have unsigned := l.dropSign_chars
  rw [shape, List.map_cons, List.cons_append,
    dropSign_digitChar (digits d (List.mem_cons_self ..))] at unsigned
  -- on both sides digits are passed over
  have tail : '-' :: rest = l.tail := by
    rw [← dropWhile_isGrouped l.whole_below l.marked_tail.stop, ← unsignedChars_eq, ← unsigned]
    exact (dropWhile_isGrouped digits rfl).symm
  exact absurd (l.marked_tail _ _ tail.symm) (by decide)

/-- **No number is a timestamp**: behind four digits there is no minus. -/
theorem looksTimestamp_chars : Tag.looksTimestamp l.chars = false := by
  have none : Yaml.timestampText? l.chars = none := by
    refine Option.eq_none_iff_forall_ne_some.2 fun t found => ?_
    rw [Yaml.timestampText?] at found
    obtain ⟨⟨year, rest⟩, read, found⟩ := Option.bind_eq_some_iff.1 found
    obtain ⟨behind, months, -⟩ := Option.bind_eq_some_iff.1 found
    obtain ⟨front, years, shape⟩ := exists_numeral_of_digits? read
    obtain ⟨ds, digits, rfl⟩ := exists_areDigits fun c mem => isDigit_iff.2 (years.digit mem)
    have ne : ds ≠ [] := by
      rintro rfl
      cases years.length
    rcases rest with _ | ⟨c, rest⟩
    · cases months
    · rw [Yaml.after?] at months
      split at months
      · rename_i minus
        exact l.chars_ne_append digits ne rest (minus ▸ shape)
      · cases months
  rw [Tag.looksTimestamp, none]

/-- **What YAML takes a number for**: an integer, a number with a fraction or a text. -/
theorem ofPlain_chars :
    Tag.ofPlain l.chars =
      if l.isYaml then (if l.fraction = [] then .int else .float) else .text := by
  have null : Tag.looksNull l.chars = false := l.any_word (by decide)
  have bool : Tag.looksBool l.chars = false := l.any_word (by decide)
  have merge : l.chars ≠ ['<', '<'] := (l.ne_chars (by decide)).symm
  have default : l.chars ≠ ['='] := (l.ne_chars (by decide)).symm
  rw [Tag.ofPlain, null, bool, looksFloat_chars, looksInt_chars, looksTimestamp_chars, if_neg merge,
    if_neg default, isYaml]
  rcases l.fraction with _ | ⟨d, ds⟩
  · rcases l.exponent with _ | e
    · rfl
    · rfl
  · rcases l.exponent with _ | e
    · rfl
    · cases signed : e.sign.isSome with
      | true => simp [signed]
      | false => simp [signed]

/-! ### The value of a number -/

/-- A number has no marks between its digits. -/
theorem filter_chars : l.chars.filter (· ≠ '_') = l.chars := by
  refine List.filter_eq_self.2 fun c mem => ?_
  have word := l.isWordChar_of_mem c mem
  rw [decide_eq_true_eq]
  rintro rfl
  cases word

/-- The sign of a number is read in front of it. -/
theorem sign_chars : Number.sign l.chars = (l.negative, l.unsignedChars) := by
  obtain ⟨d, rest, lt, shape⟩ := l.exists_unsignedChars
  rw [chars, shape, Number.sign_append _ lt]

/-- Digits denote in base ten what they are written for. -/
theorem natIn?_map {ds : List Nat} (digits : AreDigits ds) (ne : ds ≠ [])
    (short : ds.length ≤ integerDigits) :
    Yaml.natIn? 10 (ds.map digitChar) = some (Decimal.value ds) := by
  have read : (ds.map digitChar).mapM Yaml.digitValue? = some ds := by
    clear ne short
    induction ds with
    | nil => rfl
    | cons d ds ih =>
      obtain ⟨first, others⟩ := List.forall_mem_cons.1 digits
      rw [List.map_cons, List.mapM_cons, Yaml.digitValue?, Number.digit?_digitChar first, ih others]
      rfl
  have large : (ds.any fun d => decide (10 ≤ d)) = false :=
    List.any_eq_false.2 fun d mem => by simpa using digits d mem
  have long : ¬Number.integerDigits < ds.length := Nat.not_lt.2 short
  rw [Yaml.natIn?, read]
  simp only [Option.bind_eq_bind, Option.bind_some, large, ne, long, and_false, or_self, if_false,
    Bool.false_eq_true]
  rfl

/-- Digits that do not start with a zero are a decimal integer. -/
theorem integerIn?_map {d : Nat} {ds : List Nat} (digits : AreDigits (d :: ds)) (zero : d ≠ 0)
    (short : (d :: ds).length ≤ integerDigits) :
    Yaml.integerIn? 10 ((d :: ds).map digitChar) = some (Decimal.value (d :: ds) : Int) := by
  have first := digits d (List.mem_cons_self ..)
  have apart : ∀ d < 10, d ≠ 0 → digitChar d ≠ '0' := by decide
  have ne : (d :: ds).map digitChar ≠ [] := List.cons_ne_nil _ _
  have ends := digit_ends ne fun c mem => isDigit_iff.1 (isDigit_of_digits digits c mem)
  have stripped : Text.strip ((d :: ds).map digitChar) = (d :: ds).map digitChar :=
    Number.strip_signed false ends.1 ends.2
  have signed : Number.sign ((d :: ds).map digitChar) = (false, (d :: ds).map digitChar) :=
    Number.sign_append false first _
  have base : Yaml.dropBase 10 ((d :: ds).map digitChar) = (d :: ds).map digitChar := by
    rw [Yaml.dropBase.eq_def]
    split
    · rename_i same
      exact absurd (List.cons.inj same).1 (apart d first zero)
    · rfl
  rw [Yaml.integerIn?, stripped, signed]
  simp only [base, natIn?_map digits (List.cons_ne_nil _ _) short]
  rfl

/-- **The digits of an integer** denote it, with a zero in front only where it is all. -/
theorem magnitude?_map {ds : List Nat} (digits : AreDigits ds) (ne : ds ≠ [])
    (unpadded : ∀ rest, ds = 0 :: rest → rest = []) (short : ds.length ≤ integerDigits) :
    Yaml.magnitude? (ds.map digitChar) = some (Decimal.value ds : Int) := by
  obtain ⟨d, others, rfl⟩ := List.exists_cons_of_ne_nil ne
  by_cases zero : d = 0
  · subst zero
    obtain rfl := unpadded others rfl
    rfl
  have apart : ∀ d < 10, d ≠ 0 → digitChar d ≠ '0' := by decide
  have first := apart d (digits d (List.mem_cons_self ..)) zero
  have colon : (((d :: others).map digitChar).contains ':') = false := by
    refine Bool.eq_false_iff.2 fun mem => ?_
    have word := isWordChar_of_digits digits _ (List.contains_iff_mem.1 mem)
    cases word
  rw [Yaml.magnitude?.eq_def]
  split
  · rename_i same
    exact absurd (List.cons.inj same).1 first
  · rename_i same
    exact absurd (List.cons.inj same).1 first
  · rename_i same
    exact absurd (List.cons.inj same).1 first
  · rename_i same
    exact absurd (List.cons.inj same).1 first
  · rw [colon, if_neg Bool.false_ne_true, integerIn?_map digits zero short]

theorem number_of_whole (whole : l.fraction = []) (plain : l.exponent = none) :
    l.number =
      .int (if l.negative then -(Decimal.value l.whole : Int) else Decimal.value l.whole) :=
  if_pos ⟨whole, plain⟩

theorem number_of_fraction (fraction : l.fraction ≠ []) :
    l.number = .float (.ofDecimal l.negative (Decimal.value (l.whole ++ l.fraction)) l.scale) :=
  if_neg fun both => fraction both.1

/-- **An integer** is the same in YAML. -/
theorem integerValue_chars (whole : l.fraction = []) (plain : l.exponent = none) :
    Yaml.integerValue l.chars = .ok (.number l.number) := by
  have unsigned : l.unsignedChars = l.whole.map digitChar := by
    rw [unsignedChars, whole, plain]
    exact List.append_nil _
  have ne : l.whole.map digitChar ≠ [] := by simpa using l.ne
  rw [Yaml.integerValue, filter_chars, sign_chars, l.number_of_whole whole plain]
  simp only [unsigned, ne, if_false, magnitude?_map l.whole_below l.ne l.unpadded
    (l.short whole plain)]

/-- In small letters, a number with a fraction is one of the forms of a number. -/
theorem decimalText_lower (yaml : l.isYaml = true) (fraction : l.fraction ≠ []) :
    DecimalText (l.unsignedChars.map Operation.lowerChar) (l.whole ++ l.fraction) l.scale := by
  have lower : ∀ {ds : List Nat}, AreDigits ds →
      (ds.map digitChar).map Operation.lowerChar = ds.map digitChar := by
    intro ds digits
    have same : ∀ d < 10, Operation.lowerChar (digitChar d) = digitChar d := by decide
    rw [List.map_map]
    exact List.map_congr_left fun d mem => same d (digits d mem)
  have point : fractionChars l.fraction = '.' :: l.fraction.map digitChar := by
    obtain ⟨d, ds, shape⟩ := List.exists_cons_of_ne_nil fraction
    rw [shape, fractionChars]
  rw [isYaml] at yaml
  rw [unsignedChars, point, scale, List.map_append, lower l.whole_below, List.cons_append,
    List.map_cons, List.map_append, lower l.fraction_below]
  rcases shape : l.exponent with _ | e
  · rw [exponentChars, List.map_nil, List.append_nil, Option.map_none, Option.getD_none,
      Int.zero_sub]
    exact .positional l.whole_below l.fraction_below l.ne fraction
  · rw [shape, Bool.and_eq_true, Option.isSome_iff_exists] at yaml
    obtain ⟨-, negative, signed⟩ := yaml
    have letter : Operation.lowerChar (if e.upper then 'E' else 'e') = 'e' := by
      cases e.upper with
      | true => rfl
      | false => rfl
    have sign : Operation.lowerChar (Number.exponentSign negative) =
        Number.exponentSign negative := by
      cases negative with
      | true => rfl
      | false => rfl
    have value : e.value =
        if negative then -(Decimal.value e.digits : Int) else Decimal.value e.digits := by
      rw [Exponent.value, signed]
      simp only [Option.some.injEq]
    rw [exponentChars, Exponent.chars, signed, Exponent.signChars, List.singleton_append,
      List.map_cons, List.map_cons, lower e.below, letter, sign, Option.map_some, Option.getD_some,
      value]
    exact .pointed l.whole_below l.fraction_below e.below l.ne e.ne negative

end Literal

theorem isWordChar_of_decimalText {cs : List Char} {ds : List Nat} {e : Int}
    (text : DecimalText cs ds e) : ∀ c ∈ cs, isWordChar c = true := by
  have mark : ∀ negative, isWordChar (Number.exponentSign negative) = true := by decide
  cases text with
  | positional whole fraction _ _ =>
    exact List.forall_mem_append.2 ⟨isWordChar_of_digits whole,
      List.forall_mem_cons.2 ⟨rfl, isWordChar_of_digits fraction⟩⟩
  | scientific whole exponent _ _ negative =>
    exact List.forall_mem_append.2 ⟨isWordChar_of_digits whole, List.forall_mem_cons.2
      ⟨rfl, List.forall_mem_cons.2 ⟨mark negative, isWordChar_of_digits exponent⟩⟩⟩
  | pointed whole fraction exponent _ _ negative =>
    exact List.forall_mem_append.2 ⟨isWordChar_of_digits whole, List.forall_mem_cons.2
      ⟨rfl, List.forall_mem_append.2 ⟨isWordChar_of_digits fraction, List.forall_mem_cons.2
        ⟨rfl, List.forall_mem_cons.2 ⟨mark negative, isWordChar_of_digits exponent⟩⟩⟩⟩⟩

/-- **A form of a number** is read without a sign. -/
theorem floatMagnitude_decimalText {cs : List Char} {ds : List Nat} {e : Int}
    (text : DecimalText cs ds e) :
    Yaml.floatMagnitude cs = .ok (.ofDecimal false (Decimal.value ds) e) := by
  have read : Number.decimal? cs = some (.ofDecimal false (Decimal.value ds) e) :=
    Number.decimal?_decimalText false text
  have stripped : Text.strip cs = cs := Number.strip_signed false text.ends.1 text.ends.2
  have colon : cs.contains ':' = false := by
    refine Bool.eq_false_iff.2 fun mem => ?_
    cases isWordChar_of_decimalText text _ (List.contains_iff_mem.1 mem)
  obtain ⟨c, d, rest, rfl, digit⟩ := text.ends.1
  have apart : ∀ {word : List Char}, word.head?.bind Text.asciiDigit? = none →
      c :: rest ≠ word := by
    rintro word none rfl
    cases digit.symm.trans none
  have signed : Number.sign (c :: rest) = (false, c :: rest) := Number.sign_of_digit digit rest
  have float : Yaml.float? (c :: rest) = some (.ofDecimal false (Decimal.value ds) e) := by
    rw [Yaml.float?, stripped, signed]
    dsimp only
    rw [if_neg (not_or.2 ⟨apart rfl, apart rfl⟩), if_neg (apart rfl), read]
  rw [Yaml.floatMagnitude, if_neg (apart rfl), if_neg (apart rfl), colon,
    if_neg Bool.false_ne_true, float]

namespace Literal

variable (l : Literal)

/-- **A number with a fraction** is the same in YAML. -/
theorem floatValue_chars (yaml : l.isYaml = true) (fraction : l.fraction ≠ []) :
    Yaml.floatValue l.chars = .ok (.number l.number) := by
  have text := l.decimalText_lower yaml fraction
  have lower : l.chars.map Operation.lowerChar =
      signText l.negative ++ l.unsignedChars.map Operation.lowerChar := by
    rw [chars, List.map_append]
    cases l.negative with
    | true => rfl
    | false => rfl
  have magnitude := floatMagnitude_decimalText text
  obtain ⟨c, d, rest, shape, digit⟩ := text.ends.1
  rw [Yaml.floatValue, filter_chars, lower, number_of_fraction l fraction]
  rw [shape] at magnitude ⊢
  cases l.negative with
  | true =>
    change Except.map _ (Yaml.floatMagnitude (c :: rest)) = _
    rw [magnitude, Binary64.ofDecimal_true]
    rfl
  | false =>
    have signed : Number.sign (c :: rest) = (false, c :: rest) := Number.sign_of_digit digit rest
    have ne : c :: rest ≠ [] := List.cons_ne_nil _ _
    rw [signText, if_neg Bool.false_ne_true, List.nil_append]
    simp only [ne, if_false, signed, magnitude]
    rfl

/-- **The value of a number** in YAML: the same number, or the text of it. -/
theorem scalarValue_chars : Yaml.scalarValue (Tag.ofPlain l.chars) l.chars =
    .ok (if l.isYaml then .number l.number else .string (String.ofList l.chars)) := by
  rw [ofPlain_chars]
  by_cases yaml : l.isYaml = true
  · by_cases fraction : l.fraction = []
    · have plain : l.exponent = none := by
        rcases shape : l.exponent with _ | e
        · rfl
        · rw [isYaml, shape, fraction] at yaml
          cases yaml
      rw [if_pos yaml, if_pos yaml, if_pos fraction]
      exact l.integerValue_chars fraction plain
    · rw [if_pos yaml, if_pos yaml, if_neg fraction]
      exact l.floatValue_chars yaml fraction
  · rw [if_neg yaml, if_neg yaml]
    rfl

end Literal

/-! ### Scalars -/

/-- The characters that YAML takes a piece of a string for: a half of a pair denotes none. -/
def Piece.yaml : Piece → List Char
  | .plain c _ => [c]
  | .escape _ c _ => [c]
  | .unicode code => [scalar code.number]
  | .halves high low _ => [scalar high.number, scalar low.number]

namespace Scalar

/-- A scalar that is no string. -/
def isPlain : Scalar → Bool
  | .string _ => false
  | _ => true

/-- The text that YAML reads for a scalar. -/
def text : Scalar → List Char
  | .string pieces => pieces.flatMap Piece.yaml
  | s => s.chars

/-- What YAML takes a scalar for. -/
def tag (s : Scalar) : Tag :=
  if s.isPlain then .ofPlain s.text else .text

/-- **The value of a scalar in YAML.** -/
def yaml : Scalar → Value
  | .null => .null
  | .bool b => .bool b
  | .number l => if l.isYaml then .number l.number else .string (String.ofList l.chars)
  | s => .string (String.ofList s.text)

/-- **The value of a scalar** is the one that YAML constructs. -/
theorem scalarValue_text (s : Scalar) : Yaml.scalarValue s.tag s.text = .ok s.yaml := by
  cases s with
  | null => rfl
  | bool b =>
    cases b with
    | true => rfl
    | false => rfl
  | nan => rfl
  | infinity negative =>
    cases negative with
    | true => rfl
    | false => rfl
  | string pieces => rfl
  | number l => exact l.scalarValue_chars

end Scalar

end Json

end DocumentFilter
