import DocumentFilter.Config.Check

/-!
# Integers in configuration

An integer may be given as a number without a fraction, as a truth value, or as a text: an
optional sign and decimal digits, which single underscores may separate and a point with
zeros may follow, with white space around them. A binary64 number counts only strictly
between `-2 ^ 63` and `2 ^ 63`, a text only up to 4300 digits.

* `DocumentFilter.Check.integer`: the integer that a value stands for.
-/

namespace DocumentFilter.Check

/-- White space, the information separators apart. -/
def isSpace (c : Char) : Bool :=
  Text.isBlank c && !(0x1C ≤ c.toNat && c.toNat ≤ 0x1F)

/-- A text without the white space at its ends. -/
def trimSpace (cs : List Char) : List Char :=
  ((cs.dropWhile isSpace).reverse.dropWhile isSpace).reverse

/-- Digits from one of them on, with single underscores between them; `digit?` tells what
counts as a digit. -/
def groupedDigits? (digit? : Char → Option Nat) : List Char → Option (List Nat)
  | [] => none
  | c :: rest =>
    match digit? c, rest with
    | none, _ => none
    | some d, [] => some [d]
    | some d, '_' :: rest => (groupedDigits? digit? rest).map (d :: ·)
    | some d, rest => (groupedDigits? digit? rest).map (d :: ·)

/-- A text without a point and the zeros behind it. -/
def dropZeroFraction (cs : List Char) : List Char :=
  match cs.dropWhile (· ≠ '.') with
  | '.' :: zeros => if zeros.all (· = '0') then cs.takeWhile (· ≠ '.') else cs
  | _ => cs

/-- The sign in front of an integer: whether it is negative, and what follows. -/
def integerSign : List Char → Bool × List Char
  | '-' :: rest => (true, rest)
  | '+' :: rest => (false, rest)
  | cs => (false, cs)

/-- The greatest number of digits of an integer in a text. -/
def integerDigits : Nat := 4300

/-- The integer that a text denotes. -/
def integerOfText (s : String) : Checked Int :=
  let (negative, cs) := integerSign (dropZeroFraction (trimSpace s.toList))
  match groupedDigits? Text.asciiDigit? cs with
  | none => Checked.fault .integerMalformed
  | some ds =>
    if integerDigits < ds.length then Checked.fault .integerOversized
    else
      let n : Int := Decimal.value ds
      .ok (if negative then -n else n)

/-- The integer that a binary64 number denotes. -/
def integerOfFloat (x : Binary64) : Checked Int :=
  match x.toRat? with
  | none => Checked.fault .integerInfinite
  | some r =>
    if r.den ≠ 1 then Checked.fault .integerFractional
    else if r.num.natAbs < 0x8000000000000000 then .ok r.num
    else Checked.fault .integerOversized

/-- **The integer that a value stands for.** -/
def integer : Value → Checked Int
  | .bool b => .ok (if b then 1 else 0)
  | .number (.int n) => .ok n
  | .number (.float x) => integerOfFloat x
  | .string s => integerOfText s
  | _ => Checked.fault .integerExpected

end DocumentFilter.Check
