import DocumentFilter.Text.Blank
import DocumentFilter.Text.Decimal
import DocumentFilter.Text.Digit
import Mathlib.Data.List.DropRight
import Mathlib.Data.List.Forall2
import Mathlib.Tactic.Ring

/-!
# Numerals

A numeral is a text of the digits `0` to `9`, and `DocumentFilter.Numeral` says of what width
it is and which number it denotes. The texts that the library writes for numbers are
numerals, and every reader of digits reads them: those that take the digits `0` to `9` alone
and those that take the digits of any script.

* `DocumentFilter.Numeral`: a numeral, its width and its number;
* `DocumentFilter.numeral_padded`, `DocumentFilter.numeral_natText`: what is written;
* `DocumentFilter.Text.digit?_of_asciiDigit?`: one reading of digits within the other.
-/

namespace DocumentFilter

/-! ### Digits -/

namespace Text

/-- What is written for a digit is read as that digit. -/
theorem asciiDigit?_digitChar {d : Nat} (h : d < 10) :
    asciiDigit? (Decimal.digitChar d) = some d := by
  have all : ∀ d < 10, asciiDigit? (Decimal.digitChar d) = some d := by decide
  exact all d h

/-- The digits `0` to `9` are consecutive characters. -/
theorem asciiDigit?_eq_some_iff {c : Char} {d : Nat} :
    asciiDigit? c = some d ↔ d < 10 ∧ c.toNat = 48 + d := by
  have zero : '0' ≤ c ↔ 48 ≤ c.toNat := by
    rw [Char.le_def, UInt32.le_iff_toNat_le]
    rfl
  have nine : c ≤ '9' ↔ c.toNat ≤ 57 := by
    rw [Char.le_def, UInt32.le_iff_toNat_le]
    rfl
  have code : '0'.toNat = 48 := rfl
  simp only [asciiDigit?, zero, nine, code]
  split
  · rw [Option.some.injEq]
    omega
  · simp only [reduceCtorEq, false_iff]
    omega

/-- A digit differs from every character that is none. -/
theorem ne_of_asciiDigit? {c other : Char} {d : Nat} (h : asciiDigit? c = some d)
    (none : asciiDigit? other = none) : c ≠ other := by
  rintro rfl
  rw [h] at none
  cases none

/-- A digit is not blank. -/
theorem isBlank_of_asciiDigit? {c : Char} {d : Nat} (h : asciiDigit? c = some d) :
    isBlank c = false := by
  obtain ⟨lt, code⟩ := asciiDigit?_eq_some_iff.1 h
  simp only [isBlank, code, Bool.or_eq_false_iff, Bool.and_eq_false_iff, decide_eq_false_iff_not,
    beq_eq_false_iff_ne]
  omega

/-- **A digit from `0` to `9` is a digit** when those of every script are. -/
theorem digit?_of_asciiDigit? {c : Char} {d : Nat} (h : asciiDigit? c = some d) :
    digit? c = some d := by
  obtain ⟨lt, code⟩ := asciiDigit?_eq_some_iff.1 h
  have first : zeros.find? (fun start => start ≤ c.toNat && c.toNat < start + 10) =
      some 48 := by
    rw [zeros, List.find?_cons_of_pos]
    simp only [code, Bool.and_eq_true, decide_eq_true_eq]
    omega
  rw [digit?, first, Option.map_some, code]
  exact congrArg some (Nat.add_sub_cancel_left ..)

end Text

/-! ### The numbers that digits denote -/

namespace Decimal

theorem foldl_eq (n : Nat) (ds : List Nat) :
    ds.foldl (fun n d => 10 * n + d) n = n * 10 ^ ds.length + value ds := by
  induction ds generalizing n with
  | nil => simp [value]
  | cons d ds ih =>
    have first : value (d :: ds) = d * 10 ^ ds.length + value ds := by
      rw [value, List.foldl_cons, ih, Nat.mul_zero, Nat.zero_add]
    rw [List.foldl_cons, ih, first, List.length_cons]
    ring

theorem value_cons (d : Nat) (ds : List Nat) :
    value (d :: ds) = d * 10 ^ ds.length + value ds := by
  rw [value, List.foldl_cons, foldl_eq, Nat.mul_zero, Nat.zero_add]

theorem value_append (ds es : List Nat) :
    value (ds ++ es) = value ds * 10 ^ es.length + value es := by
  rw [value, List.foldl_append, foldl_eq]
  rfl

/-- Zeros in front change nothing. -/
theorem value_replicate_append (n : Nat) (ds : List Nat) :
    value (List.replicate n 0 ++ ds) = value ds := by
  induction n with
  | zero => rfl
  | succ n ih =>
    rw [List.replicate_succ, List.cons_append, value_cons, ih, Nat.zero_mul, Nat.zero_add]

/-- Zeros behind multiply by ten. -/
theorem value_append_replicate (ds : List Nat) (n : Nat) :
    value (ds ++ List.replicate n 0) = value ds * 10 ^ n := by
  have zeros : value (List.replicate n 0) = 0 := by
    have := value_replicate_append n []
    rwa [List.append_nil] at this
  rw [value_append, zeros, List.length_replicate, Nat.add_zero]

theorem digits_ne_nil (n : Nat) : digits n ≠ [] := by
  rw [digits]
  split <;> simp

/-- A number below a power of ten has no more digits than its exponent says. -/
theorem length_digits_le {n width : Nat} (lt : n < 10 ^ width) (pos : 0 < width) :
    (digits n).length ≤ width := by
  induction width generalizing n with
  | zero => cases pos
  | succ width ih =>
    rw [digits]
    split
    · simp
    · rename_i big
      have smaller : n / 10 < 10 ^ width := by
        rw [Nat.pow_succ] at lt
        omega
      have pos : 0 < width := by
        rcases Nat.eq_zero_or_pos width with rfl | pos
        · omega
        · exact pos
      rw [List.length_append, List.length_singleton]
      exact Nat.succ_le_succ (ih smaller pos)

end Decimal

/-! ### The ends of a text -/

/-- A text whose first character is a digit. -/
def StartsInDigit (cs : List Char) : Prop :=
  ∃ c d rest, cs = c :: rest ∧ Text.asciiDigit? c = some d

/-- A text whose last character is a digit. -/
def EndsInDigit (cs : List Char) : Prop :=
  ∃ c d front, cs = front ++ [c] ∧ Text.asciiDigit? c = some d

theorem StartsInDigit.append {cs : List Char} (h : StartsInDigit cs) (rest : List Char) :
    StartsInDigit (cs ++ rest) := by
  obtain ⟨c, d, others, rfl, digit⟩ := h
  exact ⟨c, d, others ++ rest, rfl, digit⟩

theorem EndsInDigit.append {cs : List Char} (h : EndsInDigit cs) (front : List Char) :
    EndsInDigit (front ++ cs) := by
  obtain ⟨c, d, others, rfl, digit⟩ := h
  exact ⟨c, d, front ++ others, (List.append_assoc ..).symm, digit⟩

theorem EndsInDigit.cons {cs : List Char} (h : EndsInDigit cs) (first : Char) :
    EndsInDigit (first :: cs) :=
  h.append [first]

/-- A text of digits starts and ends in one. -/
theorem digit_ends {cs : List Char} (ne : cs ≠ [])
    (digits : ∀ c ∈ cs, ∃ d, Text.asciiDigit? c = some d) :
    StartsInDigit cs ∧ EndsInDigit cs := by
  constructor
  · obtain ⟨c, rest, rfl⟩ := List.exists_cons_of_ne_nil ne
    obtain ⟨d, digit⟩ := digits c (List.mem_cons_self ..)
    exact ⟨c, d, rest, rfl, digit⟩
  · obtain ⟨d, digit⟩ := digits _ (List.getLast_mem ne)
    exact ⟨_, d, _, (List.dropLast_concat_getLast ne).symm, digit⟩

namespace Text

/-- A text that starts and ends in characters that are not blank has no blanks to drop. -/
theorem strip_eq_self {cs : List Char} {first last : Char} {rest front : List Char}
    (starts : cs = first :: rest) (ends : cs = front ++ [last])
    (first_solid : isBlank first = false) (last_solid : isBlank last = false) :
    strip cs = cs := by
  have kept : cs.dropWhile isBlank = cs := by
    rw [starts, List.dropWhile_cons_of_neg (by simp [first_solid])]
  rw [strip, kept, stripRight, ends, List.reverse_append, List.reverse_singleton,
    List.singleton_append, List.dropWhile_cons_of_neg (by simp [last_solid]),
    List.reverse_cons, List.reverse_reverse]

/-- A first character that is not blank stays. -/
theorem strip_cons {c : Char} (rest : List Char) (solid : isBlank c = false) :
    ∃ others, strip (c :: rest) = c :: others := by
  rw [strip, List.dropWhile_cons_of_neg (by simp [solid]), stripRight, List.reverse_cons,
    List.dropWhile_append]
  split
  · exact ⟨[], by simp [solid]⟩
  · exact ⟨_, by rw [List.reverse_append, List.reverse_singleton, List.singleton_append]⟩

/-- What is left stood there without a gap. -/
theorem strip_infix (cs : List Char) : strip cs <:+: cs := by
  have front : strip cs <+: cs.dropWhile isBlank := List.rdropWhile_prefix isBlank _
  exact front.isInfix.trans (List.dropWhile_suffix _).isInfix

end Text

/-! ### Numerals -/

/-- Where a reader of single characters reads a whole text, it reads each character. -/
theorem forall₂_of_mapM {α β : Type} {f : α → Option β} {as : List α} {bs : List β}
    (h : as.mapM f = some bs) : List.Forall₂ (fun a b => f a = some b) as bs := by
  induction as generalizing bs with
  | nil =>
    cases h
    exact .nil
  | cons a as ih =>
    rw [List.mapM_cons] at h
    obtain ⟨b, head, h⟩ := Option.bind_eq_some_iff.1 h
    obtain ⟨others, tail, h⟩ := Option.bind_eq_some_iff.1 h
    cases h
    exact .cons head (ih tail)

/-- It reads the front of the text then as well. -/
theorem mapM_take {α β : Type} {f : α → Option β} {as : List α} {bs : List β}
    (h : as.mapM f = some bs) (n : Nat) : (as.take n).mapM f = some (bs.take n) := by
  induction as generalizing bs n with
  | nil =>
    cases h
    cases n <;> rfl
  | cons a as ih =>
    rw [List.mapM_cons] at h
    obtain ⟨b, head, h⟩ := Option.bind_eq_some_iff.1 h
    obtain ⟨others, tail, h⟩ := Option.bind_eq_some_iff.1 h
    cases h
    cases n with
    | zero => rfl
    | succ n =>
      rw [List.take_succ_cons, List.take_succ_cons, List.mapM_cons, head, ih tail]
      rfl

/-- **A numeral** of the given width: digits from `0` to `9` that denote a number. -/
structure Numeral (width : Nat) (cs : List Char) (n : Nat) : Prop where
  length : cs.length = width
  read : ∃ ds, cs.mapM Text.asciiDigit? = some ds ∧ Decimal.value ds = n

theorem mapM_asciiDigit?_digitChar {ds : List Nat} (h : ∀ d ∈ ds, d < 10) :
    (ds.map Decimal.digitChar).mapM Text.asciiDigit? = some ds := by
  induction ds with
  | nil => rfl
  | cons d ds ih =>
    obtain ⟨first, others⟩ := List.forall_mem_cons.1 h
    rw [List.map_cons, List.mapM_cons, Text.asciiDigit?_digitChar first, ih others]
    rfl

/-- The text of a number is a numeral. -/
theorem numeral_natText (n : Nat) :
    Numeral (Decimal.digits n).length (Decimal.natText n) n :=
  ⟨List.length_map _, _, mapM_asciiDigit?_digitChar fun _ mem => Decimal.digits_lt mem,
    Decimal.value_digits n⟩

/-- **A number in at least so many digits** is a numeral of that width, if it is not too
large. -/
theorem numeral_padded {width n : Nat} (lt : n < 10 ^ width) (pos : 0 < width) :
    Numeral width (Decimal.padded width n) n := by
  have text : Decimal.padded width n =
      (List.replicate (width - (Decimal.digits n).length) 0 ++ Decimal.digits n).map
        Decimal.digitChar := by
    rw [List.map_append, List.map_replicate, Decimal.padded, Decimal.natText, List.length_map]
    rfl
  have below : ∀ d ∈ List.replicate (width - (Decimal.digits n).length) 0 ++ Decimal.digits n,
      d < 10 := by
    intro d mem
    rcases List.mem_append.1 mem with mem | mem
    · rw [List.eq_of_mem_replicate mem]
      decide
    · exact Decimal.digits_lt mem
  have short := Decimal.length_digits_le lt pos
  refine ⟨?_, _, text ▸ mapM_asciiDigit?_digitChar below, ?_⟩
  · rw [text, List.length_map, List.length_append, List.length_replicate]
    omega
  · rw [Decimal.value_replicate_append, Decimal.value_digits]

namespace Numeral

variable {width n : Nat} {cs : List Char}

/-- Every character of a numeral is a digit. -/
theorem digit (h : Numeral width cs n) {c : Char} (mem : c ∈ cs) :
    ∃ d, Text.asciiDigit? c = some d := by
  obtain ⟨ds, read, -⟩ := h.read
  have digits := forall₂_of_mapM read
  clear h read
  induction digits with
  | nil => cases mem
  | cons first _ ih =>
    rcases List.mem_cons.1 mem with rfl | mem
    · exact ⟨_, first⟩
    · exact ih mem

theorem ne_nil (h : Numeral width cs n) (pos : 0 < width) : cs ≠ [] := by
  rintro rfl
  exact absurd h.length pos.ne

/-- It starts and ends in one. -/
theorem ends (h : Numeral width cs n) (pos : 0 < width) :
    StartsInDigit cs ∧ EndsInDigit cs := by
  exact digit_ends (h.ne_nil pos) fun c mem => h.digit mem

end Numeral

end DocumentFilter
