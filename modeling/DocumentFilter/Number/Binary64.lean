/-!
# Binary64 numbers

The numbers with a fraction or an exponent that a document holds are the double precision
numbers of binary floating-point arithmetic. A finite one is a sign and a magnitude
`significand * 2 ^ exponent` in canonical form, so that equal numbers have equal
representations. Rounding goes through exact rational arithmetic, which is what makes the
reader and the printer of these numbers statements about rationals.

* `DocumentFilter.Binary64.ofRat`: the number nearest to a rational, ties to even;
* `DocumentFilter.Binary64.ofDecimal`: the number nearest to `digits * 10 ^ exponent`.
-/

namespace DocumentFilter

/-- A power of two as a natural number. -/
def twoPow (n : Nat) : Nat := Nat.pow 2 n

/-- A power of ten as a natural number. -/
def tenPow (n : Nat) : Nat := Nat.pow 10 n

/-- `r * 2 ^ e` for an exponent of either sign. -/
def scaleTwo (r : Rat) : Int → Rat
  | .ofNat n => r * (twoPow n : Rat)
  | .negSucc n => r / (twoPow (n + 1) : Rat)

/-- `r * 10 ^ e` for an exponent of either sign. -/
def scaleTen (r : Rat) : Int → Rat
  | .ofNat n => r * (tenPow n : Rat)
  | .negSucc n => r / (tenPow (n + 1) : Rat)

/-- The integer nearest to a rational; halfway between two, the even one. -/
def roundEven (r : Rat) : Int :=
  let below := r.floor
  let rest := r - below
  if rest < 1 / 2 then below
  else if 1 / 2 < rest then below + 1
  else if below % 2 = 0 then below else below + 1

/-- The exponent of the greatest power of two that is at most a positive rational. -/
def floorLogTwo (r : Rat) : Int :=
  let guess := (r.num.toNat.log2 : Int) - r.den.log2
  if scaleTwo 1 guess ≤ r then guess else guess - 1

namespace Binary64

/-- `significand * 2 ^ exponent` is in canonical form: the significand has 53 bits, or
fewer at the least exponent. -/
def IsCanonical (significand : Nat) (exponent : Int) : Prop :=
  significand < 9007199254740992 ∧ -1074 ≤ exponent ∧ exponent ≤ 971 ∧
    (4503599627370496 ≤ significand ∨ exponent = -1074)

instance (m : Nat) (q : Int) : Decidable (IsCanonical m q) :=
  inferInstanceAs (Decidable (_ ∧ _ ∧ _ ∧ _))

/-- A finite number without its sign. -/
structure Magnitude where
  significand : Nat
  exponent : Int
  canonical : IsCanonical significand exponent
deriving DecidableEq

/-- The rational that a magnitude denotes. -/
def Magnitude.value (x : Magnitude) : Rat :=
  scaleTwo (x.significand : Rat) x.exponent

/-- The exponent of the significand's last bit when a positive rational is rounded. -/
def quantum (r : Rat) : Int :=
  max (floorLogTwo r - 52) (-1074)

/-- The magnitude nearest to a rational that is not negative, ties to even; none when it
lies beyond the greatest magnitude. -/
def Magnitude.round? (r : Rat) : Option Magnitude :=
  let q := quantum r
  let m := (roundEven (scaleTwo r (-q))).toNat
  -- rounding up may carry into one bit more
  if h : IsCanonical m q then some ⟨m, q, h⟩
  else if h : IsCanonical (m / 2) (q + 1) then some ⟨m / 2, q + 1, h⟩
  else none

end Binary64

/-- A binary64 number: no number at all, an infinity, or a sign and a magnitude. Zero has
both signs. -/
inductive Binary64
  | nan
  | infinite (negative : Bool)
  | finite (negative : Bool) (magnitude : Binary64.Magnitude)
deriving DecidableEq

namespace Binary64

/-- The zero of the given sign. -/
def zero (negative : Bool) : Binary64 :=
  .finite negative ⟨0, -1074, by decide⟩

/-- The number nearest to `r`, or to `-r`, for a rational `r` that is not negative. -/
def ofRat (negative : Bool) (r : Rat) : Binary64 :=
  if r = 0 then zero negative
  else match Magnitude.round? r with
    | some magnitude => .finite negative magnitude
    | none => .infinite negative

/-- The number nearest to a rational of either sign. -/
def nearest (r : Rat) : Binary64 :=
  if r < 0 then ofRat true (-r) else ofRat false r

/-- The number of decimal digits of a natural number, where zero has none. -/
def decimalLength (n : Nat) : Nat :=
  if n = 0 then 0 else decimalLength (n / 10) + 1
termination_by n

/-- **The number nearest to a decimal**, `digits * 10 ^ exponent` with the given sign. An
exponent may be of any size: a decimal of at least `10 ^ 309` is beyond every finite
number, and one below `10 ^ (-330)` is nearer to zero than to anything else, so neither
has to be written out. -/
def ofDecimal (negative : Bool) (digits : Nat) (exponent : Int) : Binary64 :=
  let length : Int := decimalLength digits
  if digits = 0 then zero negative
  else if 309 < length + exponent then .infinite negative
  else if length + exponent < -330 then zero negative
  else ofRat negative (scaleTen (digits : Rat) exponent)

/-- The rational that a finite number denotes. -/
def toRat? : Binary64 → Option Rat
  | .nan => none
  | .infinite _ => none
  | .finite negative magnitude =>
    some (if negative then -magnitude.value else magnitude.value)

/-- The number of the other sign. -/
def negate : Binary64 → Binary64
  | .nan => .nan
  | .infinite negative => .infinite !negative
  | .finite negative magnitude => .finite (!negative) magnitude

/-- Neither infinite nor the non-number. -/
def isFinite : Binary64 → Bool
  | .finite _ _ => true
  | _ => false

end Binary64

end DocumentFilter
