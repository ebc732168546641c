import DocumentFilter.Proofs.Number.Rounding
import Mathlib.Algebra.Order.Ring.Abs

/-!
# The nearest number

Rounding gives the nearest binary64 number, or an infinity from the middle between the
greatest finite number and the next power of two on.

Between two powers of two the magnitudes form a grid, and below that they lie closer. So
within the grid the nearest magnitude is the nearest integer in units of the last bit,
`DocumentFilter.abs_sub_roundEven_le`, and a magnitude that is not on the grid lies below
the lower power, which is a magnitude itself and is nearer.

* `DocumentFilter.Binary64.IsNearest`: no finite number is nearer to a rational;
* `DocumentFilter.Binary64.Magnitude.round?_nearest`: what rounding gives;
* `DocumentFilter.Binary64.Magnitude.round?_eq_none_iff`: where it gives nothing;
* `DocumentFilter.Binary64.ofDecimal_natCast`: the number of an integer.
-/

namespace DocumentFilter

/-! ### The nearest integer -/

variable {r : Rat}

theorem floor_bounds (r : Rat) : (r.floor : Rat) ≤ r ∧ r < r.floor + 1 := by
  refine ⟨Rat.floor_le r, ?_⟩
  have upper := Rat.lt_floor_add_one r
  rwa [Int.cast_add, Int.cast_one] at upper

theorem le_roundEven {n : Int} (le : (n : Rat) ≤ r) : n ≤ roundEven r := by
  have below : n ≤ r.floor := Rat.le_floor_iff.2 le
  rw [roundEven]
  split_ifs <;> omega

/-- Rounding to an integer changes a number by a half at most. -/
theorem abs_sub_roundEven (r : Rat) : |r - roundEven r| ≤ 1 / 2 := by
  obtain ⟨lower, upper⟩ := floor_bounds r
  rw [roundEven, abs_le]
  split_ifs <;> push_cast <;> constructor <;> linarith

/-- **The nearest integer.** Another one is at least one away from it. -/
theorem abs_sub_roundEven_le (r : Rat) (n : Int) : |r - roundEven r| ≤ |r - n| := by
  by_cases same : roundEven r = n
  · rw [same]
  · have apart : (1 : Rat) ≤ |(roundEven r : Rat) - n| := by
      exact_mod_cast Int.one_le_abs (sub_ne_zero.2 same)
    have through := abs_sub_le (roundEven r : Rat) r n
    have near := abs_sub_roundEven r
    rw [abs_sub_comm (roundEven r : Rat) r] at through
    linarith

/-- An even number is reached from a half before it on, since a tie goes to it. -/
theorem le_roundEven_iff {n : Int} (even : n % 2 = 0) :
    n ≤ roundEven r ↔ (n : Rat) - 1 / 2 ≤ r := by
  constructor
  · intro reached
    have near := (abs_le.1 (abs_sub_roundEven r)).1
    have : (n : Rat) ≤ roundEven r := by exact_mod_cast reached
    linarith
  · intro half
    by_cases le : (n : Rat) ≤ r
    · exact le_roundEven le
    · obtain ⟨lower, upper⟩ := floor_bounds r
      have below : r.floor < n := by exact_mod_cast lower.trans_lt (not_le.1 le)
      have above : n < r.floor + 2 := by
        have : (n : Rat) < r.floor + 2 := by linarith
        exact_mod_cast this
      have floor : (r.floor : Rat) = n - 1 := by
        have : r.floor = n - 1 := by omega
        rw [this, Int.cast_sub, Int.cast_one]
      rw [roundEven]
      split_ifs <;> first | omega | linarith

namespace Binary64

/-- The least integer that is rounded to an infinity. It is the middle between the greatest
finite number and the next power of two. -/
def overflow : Nat := 2 ^ 1024 - 2 ^ 970

theorem overflow_eq : (overflow : Rat) = (2 ^ 53 - 1 / 2) * 2 ^ (971 : Int) := by
  have le : 2 ^ 970 ≤ 2 ^ 1024 := pow_le_pow_right₀ (by decide) (by decide)
  rw [overflow, Nat.cast_sub le, Nat.cast_pow, Nat.cast_pow, Nat.cast_ofNat,
    show (2 : Rat) ^ 1024 = 2 ^ 54 * 2 ^ 970 by rw [← pow_add],
    show (2 : Rat) ^ (971 : Int) = 2 * 2 ^ 970 by rw [← pow_succ', ← zpow_natCast]; rfl]
  generalize (2 : Rat) ^ 970 = power
  ring

namespace Magnitude

/-! ### The units of the last bit -/

/-- A positive rational in units of the last bit that is kept of it. -/
def units (r : Rat) : Rat := scaleTwo r (-quantum r)

theorem units_mul (r : Rat) : units r * 2 ^ quantum r = r := by
  rw [units, scaleTwo_eq, mul_assoc, ← zpow_add₀ (by norm_num), neg_add_cancel, zpow_zero, mul_one]

theorem quantum_eq (pos : 0 < r) : quantum r = max (Int.log 2 r - 52) (-1074) := by
  rw [quantum, floorLogTwo_eq_log pos]

/-- They have 53 bits, or fewer at the least exponent. -/
theorem units_bounds (pos : 0 < r) :
    0 < units r ∧ units r < 2 ^ 53 ∧ (quantum r = -1074 ∨ 2 ^ 52 ≤ units r) := by
  have unit_pos : (0 : Rat) < 2 ^ quantum r := by positivity
  have shape := units_mul r
  have log := quantum_eq pos
  refine ⟨?_, ?_, ?_⟩
  · exact pos_of_mul_pos_left (by rwa [shape]) unit_pos.le
  · refine lt_of_mul_lt_mul_right ?_ unit_pos.le
    rw [shape, ← zpow_natCast, ← zpow_add₀ (by norm_num)]
    exact (lt_two_zpow_iff pos).2 (by omega)
  · by_cases least : quantum r = -1074
    · exact .inl least
    · refine .inr (le_of_mul_le_mul_right ?_ unit_pos)
      rw [shape, ← zpow_natCast, ← zpow_add₀ (by norm_num)]
      exact (two_zpow_le_iff pos).2 (by omega)

/-- The significand that rounding starts from. -/
def rounded (r : Rat) : Nat := (roundEven (units r)).toNat

theorem rounded_eq (pos : 0 < r) : (rounded r : Int) = roundEven (units r) :=
  Int.toNat_of_nonneg (le_roundEven (by exact_mod_cast (units_bounds pos).1.le))

/-- It may have one bit more, if it is the next power of two. -/
theorem rounded_bounds (pos : 0 < r) :
    rounded r ≤ 2 ^ 53 ∧ (quantum r = -1074 ∨ 2 ^ 52 ≤ rounded r) := by
  obtain ⟨-, upper, lower⟩ := units_bounds pos
  have value := rounded_eq pos
  constructor
  · by_contra above
    have reached : (2 ^ 53 + 2 : Int) ≤ roundEven (units r) + 1 := by omega
    have near := (abs_le.1 (abs_sub_roundEven (units r))).1
    have : (2 ^ 53 + 2 : Rat) ≤ roundEven (units r) + 1 := by exact_mod_cast reached
    linarith
  · refine lower.imp_right fun lower => ?_
    have reached : (2 ^ 52 : Int) ≤ roundEven (units r) := le_roundEven (by exact_mod_cast lower)
    omega

/-- **What rounding gives** is the rounded significand at the last bit that is kept; it gives
nothing where the exponent is too large. -/
theorem round?_spec (pos : 0 < r) :
    (round? r = none ∧ (971 < quantum r ∨ quantum r = 971 ∧ rounded r = 2 ^ 53)) ∨
      ∃ x, round? r = some x ∧ x.value = rounded r * 2 ^ quantum r ∧
        (quantum r < 971 ∨ quantum r = 971 ∧ rounded r < 2 ^ 53) := by
  obtain ⟨upper, lower⟩ := rounded_bounds pos
  have least : -1074 ≤ quantum r := le_max_right _ _
  have shape : round? r =
      if h : IsCanonical (rounded r) (quantum r) then some ⟨_, _, h⟩
      else if h : IsCanonical (rounded r / 2) (quantum r + 1) then some ⟨_, _, h⟩
      else none := rfl
  rw [shape]
  by_cases short : IsCanonical (rounded r) (quantum r)
  · rw [dif_pos short]
    obtain ⟨bits, -, greatest, -⟩ := short
    refine .inr ⟨_, rfl, value_eq _, by omega⟩
  · rw [dif_neg short]
    have long : 971 < quantum r ∨ rounded r = 2 ^ 53 := by
      rw [IsCanonical] at short
      omega
    by_cases carried : IsCanonical (rounded r / 2) (quantum r + 1)
    · rw [dif_pos carried]
      obtain ⟨bits, -, greatest, -⟩ := carried
      have power : rounded r = 2 ^ 53 := by omega
      have value : ((rounded r / 2 : Nat) : Rat) * 2 ^ (quantum r + 1) =
          rounded r * 2 ^ quantum r := by
        rw [power, zpow_add_one₀ (by norm_num)]
        norm_num
        ring
      exact .inr ⟨_, rfl, (value_eq _).trans value, by omega⟩
    · rw [dif_neg carried]
      rw [IsCanonical] at carried
      exact .inl ⟨rfl, by omega⟩

/-! ### The nearest magnitude -/

/-- A magnitude is on the grid of a last bit, or lies below the full significands there. -/
theorem grid (x : Magnitude) (q : Int) :
    (∃ n : Int, x.value = n * 2 ^ q) ∨ (-1074 < q ∧ x.value < 2 ^ 52 * 2 ^ q) := by
  obtain ⟨short, least, -, -⟩ := x.canonical
  rw [value_eq]
  rcases le_or_gt q x.exponent with le | lt
  · obtain ⟨k, shift⟩ := Int.le.dest le
    refine .inl ⟨x.significand * 2 ^ k, ?_⟩
    rw [← shift, zpow_add₀ (by norm_num), zpow_natCast]
    push_cast
    ring
  · refine .inr ⟨by omega, ?_⟩
    have significand : (x.significand : Rat) < 2 ^ 53 := by exact_mod_cast short
    have power : (2 : Rat) ^ x.exponent ≤ 2 ^ (q - 1) :=
      zpow_le_zpow_right₀ (by norm_num) (by omega)
    calc (x.significand : Rat) * 2 ^ x.exponent < 2 ^ 53 * 2 ^ x.exponent :=
          mul_lt_mul_of_pos_right significand (by positivity)
      _ ≤ 2 ^ 53 * 2 ^ (q - 1) := mul_le_mul_of_nonneg_left power (by positivity)
      _ = 2 ^ 52 * 2 ^ q := by
        rw [zpow_sub_one₀ (by norm_num)]
        ring

/-- The rounded significand is the nearest on the grid. -/
theorem abs_sub_rounded_le (pos : 0 < r) (n : Int) :
    |r - rounded r * 2 ^ quantum r| ≤ |r - n * 2 ^ quantum r| := by
  have scaled : ∀ m : Int, |r - m * 2 ^ quantum r| = |units r - m| * 2 ^ quantum r := by
    intro m
    rw [← abs_of_pos (show (0 : Rat) < 2 ^ quantum r by positivity), ← abs_mul, sub_mul,
      abs_of_pos (show (0 : Rat) < 2 ^ quantum r by positivity), units_mul]
  have value : ((rounded r : Nat) : Rat) = (roundEven (units r) : Rat) := by
    exact_mod_cast congrArg (Int.cast (R := Rat)) (rounded_eq pos)
  rw [value, scaled, scaled]
  exact mul_le_mul_of_nonneg_right (abs_sub_roundEven_le _ n) (by positivity)

/-- **Rounding gives the nearest magnitude.** -/
theorem round?_nearest (pos : 0 < r) {x : Magnitude} (rounds : round? r = some x)
    (y : Magnitude) : |r - x.value| ≤ |r - y.value| := by
  obtain ⟨none, -⟩ | ⟨x', some, value, -⟩ := round?_spec pos
  · rw [none] at rounds
    cases rounds
  obtain rfl : x' = x := Option.some.inj (some.symm.trans rounds)
  rw [value]
  rcases y.grid (quantum r) with ⟨n, on⟩ | ⟨above, off⟩
  · rw [on]
    exact abs_sub_rounded_le pos n
  · -- off the grid, the lower power of two is nearer, and it is on the grid
    have full : 2 ^ 52 ≤ units r := (units_bounds pos).2.2.resolve_left (by omega)
    have lower : 2 ^ 52 * 2 ^ quantum r ≤ r := by
      calc (2 : Rat) ^ 52 * 2 ^ quantum r ≤ units r * 2 ^ quantum r :=
            mul_le_mul_of_nonneg_right full (by positivity)
        _ = r := units_mul r
    have nearest := abs_sub_rounded_le pos (2 ^ 52)
    push_cast at nearest
    refine nearest.trans ?_
    rw [abs_of_nonneg (by linarith), abs_of_nonneg (by linarith)]
    linarith

/-- **Where rounding gives nothing**: from the middle between the greatest magnitude and the
next power of two on. -/
theorem round?_eq_none_iff (pos : 0 < r) : round? r = none ↔ overflow ≤ r := by
  have log := quantum_eq pos
  have shape := units_mul r
  have value := rounded_eq pos
  obtain ⟨upper, -⟩ := rounded_bounds pos
  rw [overflow_eq]
  have unit : (0 : Rat) < 2 ^ (971 : Int) := by positivity
  -- the last power of two is reached in units of the greatest exponent
  have middle : quantum r = 971 →
      (rounded r = 2 ^ 53 ↔ (2 ^ 53 - 1 / 2) * 2 ^ (971 : Int) ≤ r) := by
    intro greatest
    have reached : rounded r = 2 ^ 53 ↔ ((2 ^ 53 : Int) : Rat) - 1 / 2 ≤ units r := by
      rw [← le_roundEven_iff (by norm_num)]
      omega
    rw [reached, ← mul_le_mul_iff_left₀ unit, ← greatest, shape]
    push_cast
    rfl
  have above : 971 < quantum r → (2 ^ 53 - 1 / 2) * 2 ^ (971 : Int) ≤ r := by
    intro large
    have power : (2 : Rat) ^ ((53 : Nat) + 971 : Int) ≤ r := (two_zpow_le_iff pos).2 (by omega)
    rw [zpow_add₀ (by norm_num), zpow_natCast] at power
    exact (mul_le_mul_of_nonneg_right (by norm_num) unit.le).trans power
  have below : (2 ^ 53 - 1 / 2) * 2 ^ (971 : Int) ≤ r → 971 ≤ quantum r := by
    intro large
    have power : (2 : Rat) ^ ((52 : Nat) + 971 : Int) ≤ r := by
      rw [zpow_add₀ (by norm_num), zpow_natCast]
      exact (mul_le_mul_of_nonneg_right (by norm_num) unit.le).trans large
    have := (two_zpow_le_iff pos).1 power
    omega
  obtain ⟨none, large⟩ | ⟨x, some, -, small⟩ := round?_spec pos
  · rw [none]
    simp only [true_iff]
    exact large.elim above fun ⟨greatest, power⟩ => (middle greatest).1 power
  · rw [some]
    simp only [reduceCtorEq, false_iff]
    intro large
    have reached := below large
    have power := (middle (by omega)).2 large
    omega

/-- A rational that is whole in units of its last bit is not changed. -/
theorem value_of_units_eq (pos : 0 < r) {n : Nat} (whole : units r = n) {x : Magnitude}
    (rounds : round? r = some x) : x.value = r := by
  obtain ⟨none, -⟩ | ⟨x', some, value, -⟩ := round?_spec pos
  · rw [none] at rounds
    cases rounds
  obtain rfl : x' = x := Option.some.inj (some.symm.trans rounds)
  rw [value, rounded, whole, roundEven_natCast, Int.toNat_natCast, ← whole, units_mul]

/-! ### Integers -/

theorem value_nonneg (x : Magnitude) : 0 ≤ x.value := by
  rw [value_eq]
  positivity

theorem value_of_significand {x : Magnitude} (none : x.significand = 0) : x.value = 0 := by
  rw [value_eq, none, Nat.cast_zero, zero_mul]

theorem exists_value_eq_zero : ∃ x : Magnitude, x.value = 0 :=
  ⟨⟨0, -1074, by decide⟩, value_of_significand rfl⟩

/-- A magnitude that is an integer has 53 bits and zeros behind them. -/
theorem exists_bits_of_value_eq {x : Magnitude} {n : Nat} (value : x.value = n) :
    ∃ s e, s < 2 ^ 53 ∧ n = s * 2 ^ e := by
  have short : x.significand < 2 ^ 53 := x.canonical.1
  rw [value_eq] at value
  rcases le_or_gt 0 x.exponent with whole | part
  · obtain ⟨e, shift⟩ := Int.eq_ofNat_of_zero_le whole
    rw [shift, zpow_natCast] at value
    exact ⟨x.significand, e, short, by exact_mod_cast value.symm⟩
  · -- with a last bit behind the point the integer is below the significand
    obtain ⟨e, shift⟩ := Int.eq_ofNat_of_zero_le (Int.neg_nonneg.2 part.le)
    have product : n * 2 ^ e = x.significand := by
      rw [← Int.neg_neg x.exponent, shift, zpow_neg, zpow_natCast, ← div_eq_mul_inv,
        div_eq_iff (by positivity)] at value
      exact_mod_cast value.symm
    have le : n ≤ n * 2 ^ e := Nat.le_mul_of_pos_right n (by positivity)
    exact ⟨n, 0, by omega, by rw [pow_zero, mul_one]⟩

/-- The last bit that is kept of 53 bits with zeros behind them is one of these or a zero. -/
theorem quantum_bits_le {s e : Nat} (short : s < 2 ^ 53) (pos : 0 < ((s * 2 ^ e : Nat) : Rat)) :
    quantum ((s * 2 ^ e : Nat) : Rat) ≤ e := by
  have upper : ((s * 2 ^ e : Nat) : Rat) < 2 ^ ((53 : Nat) + e : Int) := by
    rw [zpow_add₀ (by norm_num), zpow_natCast, zpow_natCast]
    exact_mod_cast Nat.mul_lt_mul_of_pos_right short (by positivity)
  have log := (lt_two_zpow_iff pos).1 upper
  rw [quantum_eq pos]
  omega

/-- **The integers that are magnitudes** are those of 53 bits and zeros behind them that are
not too large. -/
theorem exists_value_eq_natCast_iff {n : Nat} (small : n < overflow) :
    (∃ x : Magnitude, x.value = n) ↔ ∃ s e, s < 2 ^ 53 ∧ n = s * 2 ^ e := by
  constructor
  · rintro ⟨x, value⟩
    exact exists_bits_of_value_eq value
  · rintro ⟨s, e, short, rfl⟩
    rcases Nat.eq_zero_or_pos (s * 2 ^ e) with zero | pos
    · rw [zero, Nat.cast_zero]
      exact exists_value_eq_zero
    · have pos : 0 < ((s * 2 ^ e : Nat) : Rat) := by exact_mod_cast pos
      obtain ⟨k, shift⟩ := Int.le.dest (quantum_bits_le short pos)
      have whole : units ((s * 2 ^ e : Nat) : Rat) = (s * 2 ^ k : Nat) := by
        have power : (2 : Rat) ^ e = 2 ^ k * 2 ^ quantum ((s * 2 ^ e : Nat) : Rat) := by
          rw [← zpow_natCast, ← zpow_natCast, ← zpow_add₀ (by norm_num), add_comm, shift]
        have unit : (0 : Rat) < 2 ^ quantum ((s * 2 ^ e : Nat) : Rat) := by positivity
        refine mul_right_cancel₀ unit.ne' ?_
        rw [units_mul]
        generalize (2 : Rat) ^ quantum ((s * 2 ^ e : Nat) : Rat) = u at *
        push_cast
        rw [power, mul_assoc]
      cases rounds : round? ((s * 2 ^ e : Nat) : Rat) with
      | none => exact absurd ((round?_eq_none_iff pos).1 rounds) (by exact_mod_cast small.not_ge)
      | some x => exact ⟨x, value_of_units_eq pos whole rounds⟩

end Magnitude

/-! ### Both signs -/

/-- **A finite number than which no other is nearer** to a rational. -/
def IsNearest (r : Rat) (x : Binary64) : Prop :=
  ∃ s, x.toRat? = some s ∧ ∀ y t, toRat? y = some t → |r - s| ≤ |r - t|

variable (negative : Bool)

theorem ofRat_of_overflow (large : overflow ≤ r) : ofRat negative r = .infinite negative := by
  have pos : 0 < r := lt_of_lt_of_le (by rw [overflow_eq]; positivity) large
  rw [ofRat, if_neg pos.ne', (Magnitude.round?_eq_none_iff pos).2 large]

/-- What is not too large is rounded to the nearest magnitude. -/
theorem exists_ofRat (nonneg : 0 ≤ r) (small : r < overflow) :
    ∃ x : Magnitude, ofRat negative r = .finite negative x ∧
      ∀ y : Magnitude, |r - x.value| ≤ |r - y.value| := by
  rcases nonneg.eq_or_lt with rfl | pos
  · refine ⟨⟨0, -1074, by decide⟩, by rw [ofRat, if_pos rfl, zero], fun y => ?_⟩
    rw [Magnitude.value_of_significand rfl, sub_self, abs_zero]
    exact abs_nonneg _
  · cases rounds : Magnitude.round? r with
    | none => exact absurd ((Magnitude.round?_eq_none_iff pos).1 rounds) small.not_ge
    | some x =>
      refine ⟨x, ?_, Magnitude.round?_nearest pos rounds⟩
      rw [ofRat, if_neg pos.ne', rounds]

/-- **Rounding gives the nearest number**, of either sign. -/
theorem isNearest_ofRat (nonneg : 0 ≤ r) (small : r < overflow) :
    IsNearest (if negative then -r else r) (ofRat negative r) := by
  obtain ⟨x, rounds, nearest⟩ := exists_ofRat negative nonneg small
  -- a number of the other sign is not nearer than zero
  have other : ∀ y : Magnitude, |r - x.value| ≤ |r + y.value| := by
    intro y
    obtain ⟨z, zero⟩ := Magnitude.exists_value_eq_zero
    have near := nearest z
    have y_nonneg := y.value_nonneg
    rw [zero, sub_zero, abs_of_nonneg nonneg] at near
    rw [abs_of_nonneg (add_nonneg nonneg y_nonneg)]
    linarith
  refine ⟨if negative then -x.value else x.value, by rw [rounds, toRat?], fun y t value => ?_⟩
  cases y with
  | nan => cases value
  | infinite sign => cases value
  | finite sign y =>
    obtain rfl := Option.some.inj value
    cases negative <;> cases sign
    · exact nearest y
    · change |r - x.value| ≤ |r - -y.value|
      rw [sub_neg_eq_add]
      exact other y
    · change |-r - -x.value| ≤ |-r - y.value|
      rw [neg_sub_neg, abs_sub_comm, ← neg_add', abs_neg]
      exact other y
    · change |-r - -x.value| ≤ |-r - -y.value|
      rw [neg_sub_neg, neg_sub_neg, abs_sub_comm, abs_sub_comm y.value]
      exact nearest y

/-- A decimal that is an integer is rounded like any other. -/
theorem ofDecimal_natCast (n : Nat) : ofDecimal negative n 0 = ofRat negative n := by
  by_cases zero : n = 0
  · rw [ofDecimal, if_pos zero, zero, ofRat, if_pos Nat.cast_zero]
  · have pos : (0 : Rat) < n := by exact_mod_cast Nat.pos_of_ne_zero zero
    have log := log_decimal zero 0
    have value : scaleTen n 0 = n := by rw [scaleTen_eq, zpow_zero, mul_one]
    rw [value] at log
    rw [ofDecimal, if_neg zero, value]
    split_ifs with large small
    · -- what is sorted out as too large is
      refine (ofRat_of_overflow negative ?_).symm
      have power := (Int.zpow_le_iff_le_log (b := 10) (by decide) pos (x := 309)).2 (by omega)
      have le : overflow ≤ 10 ^ 309 := by decide +kernel
      exact le_trans (by exact_mod_cast le) power
    · omega
    · rfl

end Binary64

end DocumentFilter
