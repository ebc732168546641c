/-!
# Decimal numerals

The decimal digits of a natural number and back. Everything the library prints that
counts something (positions, years, numbers of a document) goes through
`DocumentFilter.Decimal.digits`.

* `DocumentFilter.Decimal.value_digits`: reading back what was printed gives the number;
* `DocumentFilter.Decimal.digits_lt`: every digit is below ten.
-/

namespace DocumentFilter.Decimal

/-- The decimal digits of a number, the most significant first; zero has one digit. -/
def digits (n : Nat) : List Nat :=
  if n < 10 then [n] else digits (n / 10) ++ [n % 10]
termination_by n

/-- The number that a list of digits denotes. -/
def value (ds : List Nat) : Nat :=
  ds.foldl (fun n d => 10 * n + d) 0

/-- **Digits read back**: printing a number and reading its digits gives the number. -/
theorem value_digits (n : Nat) : value (digits n) = n := by
  fun_induction digits n with
  | case1 n h => simp [value]
  | case2 n h ih =>
    simp only [value, List.foldl_append, List.foldl_cons, List.foldl_nil]
    rw [show (digits (n / 10)).foldl (fun n d => 10 * n + d) 0 = n / 10 from ih]
    omega

theorem digits_lt {n d : Nat} (h : d ∈ digits n) : d < 10 := by
  fun_induction digits n with
  | case1 n hn => simp_all
  | case2 n hn ih =>
    rcases List.mem_append.1 h with h | h
    · exact ih h
    · rw [List.mem_singleton.1 h]
      omega

/-- The character of a digit. -/
def digitChar (d : Nat) : Char :=
  Char.ofNat ('0'.toNat + d)

/-- The decimal text of a natural number. -/
def natText (n : Nat) : List Char :=
  (digits n).map digitChar

/-- The decimal text of an integer; a negative one starts with `-`. -/
def intText : Int → List Char
  | .ofNat n => natText n
  | .negSucc n => '-' :: natText (n + 1)

/-- A natural number in at least `width` digits. -/
def padded (width n : Nat) : List Char :=
  let text := natText n
  List.replicate (width - text.length) '0' ++ text

/-- The same as strings. -/
def natString (n : Nat) : String := String.ofList (natText n)

/-- The same as strings. -/
def intString (n : Int) : String := String.ofList (intText n)

end DocumentFilter.Decimal
