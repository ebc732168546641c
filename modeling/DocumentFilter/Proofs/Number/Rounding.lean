import DocumentFilter.Number.Shortest
import Mathlib.Algebra.Order.Field.Power
import Mathlib.Data.Int.Log
import Mathlib.Data.Rat.Floor
import Mathlib.Tactic.FieldSimp
import Mathlib.Tactic.Linarith
import Mathlib.Tactic.NormNum
import Mathlib.Tactic.Positivity

/-!
# The digits of a number round back to it

The digits that are written for a binary64 number are found by a search. Where it succeeds
there is nothing to prove: what it finds was rounded and compared. But the search can in
principle end without success, and then the number is written in full, and after either the
zeros at the end are dropped. So two facts about rounding are needed, that a number which is
given exactly is not changed, and that it does not matter how a decimal is written.

For the first the exponents that rounding estimates have to be right. They are the logarithms
of the library: `DocumentFilter.floorLogTwo_eq_log` for the binary exponent, which picks the
last bit of the significand, and `DocumentFilter.Binary64.log_decimal` for the decimal one,
by which decimals that are too large or too small are sorted out.

* `DocumentFilter.Binary64.Magnitude.round?_value`: what is exact is not changed;
* `DocumentFilter.Binary64.ofDecimal_mul_tenPow`: zeros at the end do not matter;
* `DocumentFilter.Binary64.ofDecimal_shortest`: the digits of a number round back to it.
-/

namespace DocumentFilter

/-! ### Powers -/

theorem twoPow_eq (n : Nat) : (twoPow n : Rat) = 2 ^ n := by
  rw [twoPow, Nat.pow_eq, Nat.cast_pow, Nat.cast_ofNat]

theorem tenPow_eq (n : Nat) : (tenPow n : Rat) = 10 ^ n := by
  rw [tenPow, Nat.pow_eq, Nat.cast_pow, Nat.cast_ofNat]

theorem scaleTwo_eq (r : Rat) (e : Int) : scaleTwo r e = r * 2 ^ e := by
  cases e with
  | ofNat n => rw [scaleTwo, twoPow_eq, Int.ofNat_eq_natCast, zpow_natCast]
  | negSucc n => rw [scaleTwo, twoPow_eq, zpow_negSucc, div_eq_mul_inv]

theorem scaleTen_eq (r : Rat) (e : Int) : scaleTen r e = r * 10 ^ e := by
  cases e with
  | ofNat n => rw [scaleTen, tenPow_eq, Int.ofNat_eq_natCast, zpow_natCast]
  | negSucc n => rw [scaleTen, tenPow_eq, zpow_negSucc, div_eq_mul_inv]

/-! ### Exponents -/

/-- A logarithm is known from two powers around the number. -/
theorem log_eq_of_bounds {b : Nat} (base : 1 < b) {r : Rat} (pos : 0 < r) {k : Int}
    (lower : (b : Rat) ^ k ≤ r) (upper : r < (b : Rat) ^ (k + 1)) : Int.log b r = k := by
  have ge := (Int.zpow_le_iff_le_log base pos).1 lower
  have lt := (Int.lt_zpow_iff_log_lt base pos).1 upper
  omega

theorem two_zpow_le_iff {r : Rat} (pos : 0 < r) {k : Int} : 2 ^ k ≤ r ↔ k ≤ Int.log 2 r := by
  have general := Int.zpow_le_iff_le_log (b := 2) (by decide) pos (x := k)
  rwa [Nat.cast_ofNat] at general

theorem lt_two_zpow_iff {r : Rat} (pos : 0 < r) {k : Int} : r < 2 ^ k ↔ Int.log 2 r < k := by
  have general := Int.lt_zpow_iff_log_lt (b := 2) (by decide) pos (x := k)
  rwa [Nat.cast_ofNat] at general

/-- The lengths of numerator and denominator tell the logarithm but for one. Each misses its
number by a factor of two at most, in opposite directions. -/
theorem log_bounds {r : Rat} (pos : 0 < r) {n : Nat} (num : r.num = n) :
    (n.log2 : Int) - r.den.log2 - 1 ≤ Int.log 2 r ∧ Int.log 2 r ≤ (n.log2 : Int) - r.den.log2 := by
  have n_ne : n ≠ 0 := by
    have := Rat.num_pos.2 pos
    omega
  have value : r * r.den = n := by
    rw [Rat.mul_den_eq_num, num, Int.cast_natCast]
  have n_lower : (2 : Rat) ^ n.log2 ≤ n := by exact_mod_cast Nat.log2_self_le n_ne
  have n_upper : (n : Rat) < 2 ^ (n.log2 + 1) := by exact_mod_cast Nat.lt_log2_self
  have d_lower : (2 : Rat) ^ r.den.log2 ≤ r.den := by
    exact_mod_cast Nat.log2_self_le r.den_nz
  have d_upper : (r.den : Rat) < 2 ^ (r.den.log2 + 1) := by exact_mod_cast Nat.lt_log2_self
  constructor
  · refine (two_zpow_le_iff pos).1 ?_
    rw [sub_sub, zpow_sub₀ two_ne_zero, div_le_iff₀ (by positivity)]
    calc (2 : Rat) ^ (n.log2 : Int) ≤ r * r.den := by rw [value, zpow_natCast]; exact n_lower
      _ ≤ r * 2 ^ ((r.den.log2 : Int) + 1) := by
        refine mul_le_mul_of_nonneg_left ?_ pos.le
        exact_mod_cast d_upper.le
  · refine Int.lt_add_one_iff.1 ((lt_two_zpow_iff pos).1 ?_)
    rw [sub_add_eq_add_sub, zpow_sub₀ two_ne_zero, lt_div_iff₀ (by positivity)]
    calc r * 2 ^ (r.den.log2 : Int) ≤ r * r.den := by
          refine mul_le_mul_of_nonneg_left ?_ pos.le
          rw [zpow_natCast]
          exact d_lower
      _ < 2 ^ ((n.log2 : Int) + 1) := by rw [value]; exact_mod_cast n_upper

/-- **The binary exponent is the logarithm.** Which of the two numbers left it is, a comparison
decides. -/
theorem floorLogTwo_eq_log {r : Rat} (pos : 0 < r) : floorLogTwo r = Int.log 2 r := by
  obtain ⟨n, num⟩ : ∃ n : Nat, r.num = n := by
    have := Rat.num_pos.2 pos
    exact ⟨r.num.toNat, by omega⟩
  obtain ⟨ge, le⟩ := log_bounds pos num
  rw [floorLogTwo, num, Int.toNat_natCast, scaleTwo_eq, one_mul]
  split
  · rename_i below
    have := (two_zpow_le_iff pos).1 below
    omega
  · rename_i above
    have := mt (two_zpow_le_iff pos).2 above
    omega

namespace Binary64

theorem decimalLength_eq_log {n : Nat} (ne : n ≠ 0) : decimalLength n = Nat.log 10 n + 1 := by
  induction n using Nat.strong_induction_on with
  | h n ih =>
    rw [decimalLength, if_neg ne]
    by_cases small : n < 10
    · rw [Nat.div_eq_of_lt small, Nat.log_of_lt small, decimalLength, if_pos rfl]
    · rw [ih (n / 10) (by omega) (by omega), Nat.log_div_base]
      have : 0 < Nat.log 10 n := Nat.log_pos (by decide) (by omega)
      omega

/-- **The decimal exponent is the logarithm.** -/
theorem log_decimal {d : Nat} (ne : d ≠ 0) (e : Int) :
    Int.log 10 (scaleTen d e) = decimalLength d + e - 1 := by
  have pos : (0 : Rat) < d := by exact_mod_cast Nat.pos_of_ne_zero ne
  have lower : ((10 : Nat) : Rat) ^ Nat.log 10 d ≤ d := by
    exact_mod_cast Nat.pow_log_le_self 10 ne
  have upper : (d : Rat) < ((10 : Nat) : Rat) ^ (Nat.log 10 d + 1) := by
    exact_mod_cast Nat.lt_pow_succ_log_self (by decide) d
  have length := decimalLength_eq_log ne
  have shape : (decimalLength d : Int) + e - 1 = Nat.log 10 d + e := by omega
  rw [shape, scaleTen_eq]
  refine log_eq_of_bounds (by decide) (by positivity) ?_ ?_
  · rw [zpow_add₀ (by norm_num), zpow_natCast]
    exact mul_le_mul_of_nonneg_right lower (by positivity)
  · rw [add_right_comm, zpow_add₀ (by norm_num)]
    refine mul_lt_mul_of_pos_right ?_ (by positivity)
    exact_mod_cast upper

/-! ### Exact values -/

namespace Magnitude

theorem value_eq (x : Magnitude) : x.value = x.significand * 2 ^ x.exponent :=
  scaleTwo_eq _ _

theorem value_pos {x : Magnitude} (pos : 0 < x.significand) : 0 < x.value := by
  have : (0 : Rat) < x.significand := by exact_mod_cast pos
  rw [value_eq]
  positivity

/-- The last bit of a magnitude is where rounding expects it. -/
theorem quantum_value {x : Magnitude} (pos : 0 < x.significand) :
    quantum x.value = x.exponent := by
  obtain ⟨short, least, -, full⟩ := x.canonical
  have upper : Int.log 2 x.value < 53 + x.exponent := by
    refine (lt_two_zpow_iff (value_pos pos)).1 ?_
    rw [value_eq, zpow_add₀ (by norm_num)]
    refine mul_lt_mul_of_pos_right ?_ (by positivity)
    exact_mod_cast short
  rw [quantum, floorLogTwo_eq_log (value_pos pos)]
  -- a significand that is not full is allowed at the lowest exponent only, which is a bound there
  rcases full with full | lowest
  · have lower : 52 + x.exponent ≤ Int.log 2 x.value := by
      refine (two_zpow_le_iff (value_pos pos)).1 ?_
      rw [value_eq, zpow_add₀ (by norm_num)]
      refine mul_le_mul_of_nonneg_right ?_ (by positivity)
      exact_mod_cast full
    omega
  · omega

theorem roundEven_natCast (n : Nat) : roundEven (n : Rat) = n := by
  have whole : (n : Rat).floor = (n : Int) := by
    rw [← Int.cast_natCast, Rat.floor_intCast]
  rw [roundEven, whole]
  simp

theorem round?_eq {r : Rat} {m : Nat} {q : Int} (exponent : quantum r = q)
    (significand : (roundEven (scaleTwo r (-q))).toNat = m) (canonical : IsCanonical m q) :
    round? r = some ⟨m, q, canonical⟩ := by
  subst exponent significand
  exact dif_pos canonical

/-- **What is exact is not changed** by rounding. -/
theorem round?_value {x : Magnitude} (pos : 0 < x.significand) : round? x.value = some x := by
  have scaled : scaleTwo x.value (-x.exponent) = x.significand := by
    rw [scaleTwo_eq, value_eq, mul_assoc, ← zpow_add₀ (by norm_num), add_neg_cancel, zpow_zero,
      mul_one]
  refine round?_eq (quantum_value pos) ?_ x.canonical
  rw [scaled, roundEven_natCast, Int.toNat_natCast]

theorem value_lt (x : Magnitude) : x.value < 10 ^ (309 : Int) := by
  obtain ⟨short, -, greatest, -⟩ := x.canonical
  have significand : (x.significand : Rat) < 2 ^ 53 := by exact_mod_cast short
  have power : (2 : Rat) ^ x.exponent ≤ 2 ^ (971 : Int) :=
    zpow_le_zpow_right₀ (by norm_num) greatest
  rw [value_eq]
  calc (x.significand : Rat) * 2 ^ x.exponent < 2 ^ 53 * 2 ^ x.exponent :=
        mul_lt_mul_of_pos_right significand (by positivity)
    _ ≤ 2 ^ 53 * 2 ^ (971 : Int) := mul_le_mul_of_nonneg_left power (by positivity)
    _ ≤ 10 ^ (309 : Int) := by
        have : 2 ^ 53 * 2 ^ 971 ≤ 10 ^ 309 := by decide +kernel
        exact_mod_cast this

theorem le_value {x : Magnitude} (pos : 0 < x.significand) : 10 ^ (-331 : Int) ≤ x.value := by
  obtain ⟨-, least, -, -⟩ := x.canonical
  have significand : (1 : Rat) ≤ x.significand := by exact_mod_cast pos
  have power : (2 : Rat) ^ (-1074 : Int) ≤ 2 ^ x.exponent :=
    zpow_le_zpow_right₀ (by norm_num) least
  rw [value_eq]
  calc (10 : Rat) ^ (-331 : Int) ≤ 1 * 2 ^ (-1074 : Int) := by
        have : 2 ^ 1074 ≤ 10 ^ 331 := by decide +kernel
        rw [one_mul, zpow_neg, zpow_neg]
        exact inv_anti₀ (by positivity) (by exact_mod_cast this)
    _ ≤ x.significand * 2 ^ x.exponent :=
        mul_le_mul significand power (by positivity) (by positivity)

end Magnitude

/-! ### Decimals -/

variable (negative : Bool)

/-- **A decimal that is exact** is rounded to the number that it denotes. It is neither too
large nor too small to be rounded at all. -/
theorem ofDecimal_of_value {d : Nat} {e : Int} {x : Magnitude} (pos : 0 < x.significand)
    (exact_ : scaleTen d e = x.value) : ofDecimal negative d e = .finite negative x := by
  have value_pos := Magnitude.value_pos pos
  have ne : d ≠ 0 := by
    rintro rfl
    rw [scaleTen_eq, Nat.cast_zero, zero_mul] at exact_
    exact value_pos.ne exact_
  have log := log_decimal ne e
  rw [exact_] at log
  have upper : Int.log 10 x.value < 309 := by
    refine (Int.lt_zpow_iff_log_lt (by decide) value_pos).1 ?_
    rw [Nat.cast_ofNat]
    exact x.value_lt
  have lower : -331 ≤ Int.log 10 x.value := by
    refine (Int.zpow_le_iff_le_log (by decide) value_pos).1 ?_
    rw [Nat.cast_ofNat]
    exact Magnitude.le_value pos
  -- the two tests that sort decimals out ask for this logarithm
  rw [ofDecimal, if_neg ne, if_neg (by omega), if_neg (by omega), exact_, ofRat,
    if_neg value_pos.ne', Magnitude.round?_value pos]

theorem ofDecimal_mul_ten (d : Nat) (e : Int) :
    ofDecimal negative (d * 10) (e - 1) = ofDecimal negative d e := by
  by_cases zero : d = 0
  · rw [zero, ofDecimal, if_pos rfl, ofDecimal, if_pos rfl]
  · have length : decimalLength (d * 10) = decimalLength d + 1 := by
      rw [decimalLength, if_neg (by omega), Nat.mul_div_cancel _ (by decide)]
    have value : scaleTen ((d * 10 : Nat) : Rat) (e - 1) = scaleTen d e := by
      rw [scaleTen_eq, scaleTen_eq, zpow_sub_one₀ (by norm_num), Nat.cast_mul, Nat.cast_ofNat]
      ring
    have shape : ((decimalLength d + 1 : Nat) : Int) + (e - 1) = decimalLength d + e := by omega
    rw [ofDecimal, ofDecimal, if_neg zero, if_neg (by omega), length, value, shape]

/-- **Zeros at the end do not matter**, if the exponent is lower by as many. -/
theorem ofDecimal_mul_tenPow (d k : Nat) (e : Int) :
    ofDecimal negative (d * 10 ^ k) (e - k) = ofDecimal negative d e := by
  induction k with
  | zero => rw [Nat.pow_zero, Nat.mul_one, Int.natCast_zero, Int.sub_zero]
  | succ k ih =>
    have shape : e - (k + 1 : Nat) = e - k - 1 := by omega
    rw [Nat.pow_succ, ← Nat.mul_assoc, shape, ofDecimal_mul_ten, ih]

theorem ofDecimal_trimmed (d : DecimalFloat) :
    ofDecimal negative d.trimmed.digits d.trimmed.exponent =
      ofDecimal negative d.digits d.exponent := by
  fun_induction DecimalFloat.trimmed d with
  | case1 d zero ih =>
    have shape : d.digits = d.digits / 10 * 10 := by omega
    have exponent : d.exponent = d.exponent + 1 - 1 := by omega
    rw [ih, shape, exponent, ofDecimal_mul_ten]
    simp
  | case2 d done => rfl

theorem ofDecimal_true (d : Nat) (e : Int) :
    ofDecimal true d e = (ofDecimal false d e).negate := by
  have ofRat_true : ∀ r, ofRat true r = (ofRat false r).negate := by
    intro r
    rw [ofRat, ofRat]
    split
    · rfl
    · cases Magnitude.round? r <;> rfl
  rw [ofDecimal, ofDecimal]
  split_ifs
  · rfl
  · rfl
  · rfl
  · exact ofRat_true _

/-! ### The digits of a number -/

/-- The digits in full denote the number. -/
theorem value_expansion (x : Magnitude) : (expansion x).value = x.value := by
  rw [DecimalFloat.value, Magnitude.value_eq, expansion, scaleTen_eq]
  cases x.exponent with
  | ofNat n =>
    rw [Nat.cast_mul, twoPow_eq, Int.ofNat_eq_natCast, zpow_natCast, zpow_zero, mul_one]
  | negSucc n =>
    -- a half is five tenths
    rw [Nat.cast_mul, Nat.pow_eq, Nat.cast_pow, Nat.cast_ofNat, zpow_negSucc, zpow_negSucc,
      show (10 : Rat) = 5 * 2 by norm_num, mul_pow]
    field_simp

/-- The only magnitude without a significand is that of the zeros. -/
theorem finite_of_significand {x : Magnitude} (none : x.significand = 0) :
    Binary64.finite negative x = zero negative := by
  have lowest : x.exponent = -1074 := x.canonical.2.2.2.resolve_left (by rw [none]; decide)
  cases x
  subst none lowest
  rfl

/-- **The digits of a number round back to it.** -/
theorem ofDecimal_shortest (x : Magnitude) :
    ofDecimal negative (shortest x).digits (shortest x).exponent = .finite negative x := by
  have unsigned : ofDecimal false (shortest x).digits (shortest x).exponent = .finite false x := by
    rw [shortest]
    split
    · rename_i zero
      exact (finite_of_significand false zero).symm
    · rename_i ne
      rw [ofDecimal_trimmed]
      cases found : (candidates x).find? (readsBack x) with
      | none =>
        exact ofDecimal_of_value false (Nat.pos_of_ne_zero ne) (value_expansion x)
      | some d =>
        have rounds : readsBack x d = true := List.find?_some found
        exact of_decide_eq_true rounds
  cases negative with
  | false => exact unsigned
  | true => rw [ofDecimal_true, unsigned]; rfl

end Binary64

end DocumentFilter
