import Mathlib.Algebra.Order.Field.Rat
import Mathlib.Data.Int.Log
import Mathlib.Data.Rat.Floor
import Mathlib.Tactic.Linarith
import Mathlib.Tactic.NormNum

/-!
# Rounding to double precision

An operation on numbers of the format binary64 returns its exact result rounded to the format: to 53
significant binary digits and no digit below `2 ^ -1074`, to the nearest number, of two equally near
ones to that whose last digit is even. Numbers are rationals here, and the greatest number of the
format has no part in the rounding.

## The rounding as a function

`round` scales its argument so that the last digit that is kept is the unit, takes the nearest
integer (`nearestEven`), and scales back. The scale is a power of two that depends on the magnitude
alone (`lastExponent`). There is no type of doubles: a number of the format is a rational that is
an integer of at most 53 binary digits times a power of two, and that is the form in which
exactness is stated.

## What a proof about doubles uses

* A multiple of a power of two by an integer of at most 53 digits is not changed
  (`round_intMul`, `round_intCast`), so sums and differences of whole amounts are exact as long as
  they stay below `2 ^ 53`. A rounded number is such a multiple (`exists_round_eq`), and a second
  rounding does not change it (`round_round`).
* Below `2 ^ n` the rounding is off by half a unit of the last digit (`abs_round_sub_le`). So it
  does not cross an integer that is farther away than that (`floor_round`).
* The rounding is monotone (`round_mono`). Within a binade that is the monotonicity of the nearest
  integer, and from one binade to a later one a power of two lies between the two results.
* An integer can be added to a rounded number without a further error as long as the sum is of the
  same binade (`round_round_add`).
-/

namespace Binary64

/-! ### The nearest integer -/

/-- The nearest integer, of two the even one. -/
def nearestEven (x : ℚ) : ℤ :=
  if x - ⌊x⌋ < 1 / 2 then ⌊x⌋
  else if 1 / 2 < x - ⌊x⌋ then ⌊x⌋ + 1
  else if Even ⌊x⌋ then ⌊x⌋
  else ⌊x⌋ + 1

/-- The nearest integer is at most a half away. -/
theorem abs_nearestEven_sub_le (x : ℚ) : |(nearestEven x : ℚ) - x| ≤ 1 / 2 := by
  have hlow := Int.floor_le x
  have hhigh := Int.lt_floor_add_one x
  rw [abs_le, nearestEven]
  split_ifs <;> push_cast <;> constructor <;> linarith

/-- An integer is the nearest to itself. -/
theorem nearestEven_intCast (n : ℤ) : nearestEven n = n := by
  rw [nearestEven, Int.floor_intCast, sub_self, if_pos (by norm_num)]

theorem floor_le_nearestEven (x : ℚ) : ⌊x⌋ ≤ nearestEven x := by
  unfold nearestEven
  split_ifs <;> omega

theorem nearestEven_le_floor (x : ℚ) : nearestEven x ≤ ⌊x⌋ + 1 := by
  unfold nearestEven
  split_ifs <;> omega

/-- Of two numbers between the same integers the greater one is rounded up first. -/
theorem nearestEven_mono {x y : ℚ} (h : x ≤ y) : nearestEven x ≤ nearestEven y := by
  rcases (Int.floor_le_floor h).eq_or_lt with heq | hlt
  · unfold nearestEven
    rw [heq]
    split_ifs <;> first | omega | (exfalso; linarith)
  · calc nearestEven x ≤ ⌊x⌋ + 1 := nearestEven_le_floor x
      _ ≤ ⌊y⌋ := hlt
      _ ≤ nearestEven y := floor_le_nearestEven y

/-! ### Rounding -/

/-- The exponent of the last binary digit that is kept. -/
def lastExponent (x : ℚ) : ℤ := max (Int.log 2 |x| - 52) (-1074)

/-- The number of the format that is nearest. -/
def round (x : ℚ) : ℚ := nearestEven (x / 2 ^ lastExponent x) * 2 ^ lastExponent x

/-- `x + y` of two numbers of the format. -/
def add (x y : ℚ) : ℚ := round (x + y)

/-- `x - y` -/
def sub (x y : ℚ) : ℚ := round (x - y)

/-- `x * y` -/
def mul (x y : ℚ) : ℚ := round (x * y)

/-- `x / y`, of a divisor that is not zero. -/
def div (x y : ℚ) : ℚ := round (x / y)

theorem lastExponent_le {x : ℚ} {n : ℤ} (hx : |x| < 2 ^ n) (hn : -1021 ≤ n) (hne : x ≠ 0) :
    lastExponent x ≤ n - 53 := by
  have hlog : Int.log 2 |x| < n :=
    (Int.lt_zpow_iff_log_lt (by decide) (abs_pos.2 hne)).1 (by exact_mod_cast hx)
  rw [lastExponent, max_le_iff]
  omega

theorem round_zero : round 0 = 0 := by
  rw [round, zero_div, show (0 : ℚ) = ((0 : ℤ) : ℚ) from rfl, nearestEven_intCast, Int.cast_zero,
    zero_mul]

/-- Half a unit of the last digit. -/
theorem abs_round_sub_le {x : ℚ} {n : ℤ} (hx : |x| < 2 ^ n) (hn : -1021 ≤ n) :
    |round x - x| ≤ 2 ^ (n - 54) := by
  rcases eq_or_ne x 0 with rfl | hne
  · rw [round_zero, sub_zero, abs_zero]
    exact (zpow_pos two_pos _).le
  · have hunit : (0 : ℚ) < 2 ^ lastExponent x := zpow_pos two_pos _
    have herror := abs_nearestEven_sub_le (x / 2 ^ lastExponent x)
    calc |round x - x|
        = |(nearestEven (x / 2 ^ lastExponent x) : ℚ) - x / 2 ^ lastExponent x| *
            2 ^ lastExponent x := by
          rw [← abs_of_pos hunit, ← abs_mul, abs_of_pos hunit, sub_mul,
            div_mul_cancel₀ _ hunit.ne', round]
      _ ≤ 1 / 2 * 2 ^ lastExponent x := mul_le_mul_of_nonneg_right herror hunit.le
      _ = 2 ^ (lastExponent x - 1) := by
          rw [zpow_sub_one₀ two_ne_zero, mul_comm, one_div]
      _ ≤ 2 ^ (n - 54) := by
          have hle := lastExponent_le hx hn hne
          exact zpow_le_zpow_right₀ one_le_two (by omega)

/-! ### What is not changed -/

/-- A power of two that is no smaller than the unit is a multiple of it. -/
theorem intCast_mul_zpow_div (n : ℤ) {e d : ℤ} (h : d ≤ e) :
    ∃ k : ℤ, (n : ℚ) * 2 ^ e / 2 ^ d = k := by
  obtain ⟨j, hj⟩ := Int.eq_ofNat_of_zero_le (sub_nonneg.2 h)
  refine ⟨n * 2 ^ j, ?_⟩
  rw [mul_div_assoc, ← zpow_sub₀ two_ne_zero, hj, zpow_natCast]
  push_cast
  rfl

/-- A multiple of its own unit is not changed. -/
theorem round_of_multiple (n : ℤ) {e : ℤ} (h : lastExponent (n * 2 ^ e) ≤ e) :
    round (n * 2 ^ e) = n * 2 ^ e := by
  obtain ⟨k, hk⟩ := intCast_mul_zpow_div n h
  have hunit : (2 : ℚ) ^ lastExponent (n * 2 ^ e) ≠ 0 := zpow_ne_zero _ two_ne_zero
  rw [round, hk, nearestEven_intCast, ← hk, div_mul_cancel₀ _ hunit]

/-- An integer of 53 binary digits times a power of two is a number of the format. -/
theorem round_intMul {n e : ℤ} (hn : |n| < 2 ^ 53) (he : -1074 ≤ e) :
    round (n * 2 ^ e) = n * 2 ^ e := by
  rcases eq_or_ne n 0 with rfl | hne
  · rw [Int.cast_zero, zero_mul, round_zero]
  · have hpow : (0 : ℚ) < 2 ^ e := zpow_pos two_pos _
    refine round_of_multiple n ((lastExponent_le (n := 53 + e) ?_ (by omega) ?_).trans (by omega))
    · rw [abs_mul, abs_of_pos hpow, zpow_add₀ two_ne_zero, ← Int.cast_abs]
      exact mul_lt_mul_of_pos_right (by exact_mod_cast hn) hpow
    · exact mul_ne_zero (Int.cast_ne_zero.2 hne) hpow.ne'

/-- Integers of 53 binary digits are numbers of the format. -/
theorem round_intCast {n : ℤ} (hn : |n| < 2 ^ 53) : round n = n := by
  simpa using round_intMul (e := 0) hn (by decide)

/-- A rounded number is an integer of at most 53 binary digits, or the next power of two, times a
power of two. -/
theorem exists_round_eq (x : ℚ) :
    ∃ n e : ℤ, round x = n * 2 ^ e ∧ |n| ≤ 2 ^ 53 ∧ -1074 ≤ e := by
  refine ⟨_, _, rfl, ?_, le_max_right _ _⟩
  have hunit : (0 : ℚ) < 2 ^ lastExponent x := zpow_pos two_pos _
  have hscaled : |x / 2 ^ lastExponent x| ≤ ((2 ^ 53 : ℤ) : ℚ) := by
    rcases eq_or_ne x 0 with rfl | hne
    · rw [zero_div, abs_zero]
      exact Int.cast_nonneg (by decide)
    · have hexponent : Int.log 2 |x| + 1 ≤ 53 + lastExponent x := by
        have hle : Int.log 2 |x| - 52 ≤ lastExponent x := le_max_left _ _
        omega
      rw [abs_div, abs_of_pos hunit, div_le_iff₀ hunit]
      calc |x| ≤ 2 ^ (Int.log 2 |x| + 1) := by
            exact_mod_cast (Int.lt_zpow_succ_log_self (b := 2) (by decide) |x|).le
        _ ≤ 2 ^ (53 + lastExponent x) := zpow_le_zpow_right₀ one_le_two hexponent
        _ = ((2 ^ 53 : ℤ) : ℚ) * 2 ^ lastExponent x := by
            rw [zpow_add₀ two_ne_zero]
            norm_num
  obtain ⟨hlow, hhigh⟩ := abs_le.1 hscaled
  rw [abs_le]
  constructor
  · rw [← Int.cast_neg] at hlow
    have hle := nearestEven_mono hlow
    rwa [nearestEven_intCast] at hle
  · have hle := nearestEven_mono hhigh
    rwa [nearestEven_intCast] at hle

/-- **A rounded number** is a number of the format. -/
theorem round_round (x : ℚ) : round (round x) = round x := by
  obtain ⟨n, e, heq, hn, he⟩ := exists_round_eq x
  rw [heq]
  rcases hn.lt_or_eq with hlt | hmax
  · exact round_intMul hlt he
  · -- the next power of two has one binary digit
    have hone : ∃ m : ℤ, n = m * 2 ^ 53 ∧ |m| < 2 ^ 53 := by
      rcases abs_eq (by decide : (0 : ℤ) ≤ 2 ^ 53) |>.1 hmax with h | h
      · exact ⟨1, by rw [h, one_mul], by decide⟩
      · exact ⟨-1, by rw [h, neg_one_mul], by decide⟩
    obtain ⟨m, rfl, hm⟩ := hone
    have hmove : ((m * 2 ^ 53 : ℤ) : ℚ) * 2 ^ e = m * 2 ^ (53 + e) := by
      rw [zpow_add₀ two_ne_zero, ← mul_assoc, Int.cast_mul]
      norm_num
    rw [hmove]
    exact round_intMul hm (by omega)

/-! ### The order -/

/-- Rounding keeps the sign. -/
theorem round_nonneg {x : ℚ} (h : 0 ≤ x) : 0 ≤ round x := by
  have hunit : (0 : ℚ) < 2 ^ lastExponent x := zpow_pos two_pos _
  have hle := nearestEven_mono (div_nonneg h hunit.le)
  rw [show (0 : ℚ) = ((0 : ℤ) : ℚ) from rfl, nearestEven_intCast] at hle
  exact mul_nonneg (by exact_mod_cast hle) hunit.le

/-- The last digit grows with the number. -/
theorem lastExponent_mono {x y : ℚ} (hx : 0 < x) (h : x ≤ y) : lastExponent x ≤ lastExponent y := by
  refine max_le_max_right _ (sub_le_sub_right (Int.log_mono_right ?_ ?_) _)
  · exact abs_pos.2 hx.ne'
  · rwa [abs_of_pos hx, abs_of_pos (hx.trans_le h)]

/-- A power of two that is a multiple of the unit bounds the rounding from above. -/
theorem round_le_zpow {x : ℚ} {k : ℤ} (h : x ≤ 2 ^ k) (hk : lastExponent x ≤ k) :
    round x ≤ 2 ^ k := by
  have hunit : (0 : ℚ) < 2 ^ lastExponent x := zpow_pos two_pos _
  obtain ⟨m, hm⟩ := intCast_mul_zpow_div 1 hk
  rw [Int.cast_one, one_mul] at hm
  have hle := nearestEven_mono (div_le_div_of_nonneg_right h hunit.le)
  rw [hm, nearestEven_intCast] at hle
  calc round x ≤ m * 2 ^ lastExponent x :=
        mul_le_mul_of_nonneg_right (by exact_mod_cast hle) hunit.le
    _ = 2 ^ k := by rw [← hm, div_mul_cancel₀ _ hunit.ne']

/-- And from below. -/
theorem zpow_le_round {x : ℚ} {k : ℤ} (h : 2 ^ k ≤ x) (hk : lastExponent x ≤ k) :
    2 ^ k ≤ round x := by
  have hunit : (0 : ℚ) < 2 ^ lastExponent x := zpow_pos two_pos _
  obtain ⟨m, hm⟩ := intCast_mul_zpow_div 1 hk
  rw [Int.cast_one, one_mul] at hm
  have hle := nearestEven_mono (div_le_div_of_nonneg_right h hunit.le)
  rw [hm, nearestEven_intCast] at hle
  calc (2 : ℚ) ^ k = m * 2 ^ lastExponent x := by rw [← hm, div_mul_cancel₀ _ hunit.ne']
    _ ≤ round x := mul_le_mul_of_nonneg_right (by exact_mod_cast hle) hunit.le

/-- **The rounding is monotone**, of numbers that are not negative. -/
theorem round_mono {x y : ℚ} (hx : 0 ≤ x) (h : x ≤ y) : round x ≤ round y := by
  rcases hx.eq_or_lt with rfl | hpos
  · rw [round_zero]
    exact round_nonneg h
  rcases (lastExponent_mono hpos h).eq_or_lt with heq | hlt
  · have hunit : (0 : ℚ) < 2 ^ lastExponent y := zpow_pos two_pos _
    rw [round, round, heq]
    refine mul_le_mul_of_nonneg_right ?_ hunit.le
    exact_mod_cast nearestEven_mono (div_le_div_of_nonneg_right h hunit.le)
  · -- The power of two at which the binade of `y` begins is in between.
    have hy : lastExponent y = Int.log 2 y - 52 := by
      have habs : |y| = y := abs_of_pos (hpos.trans_le h)
      unfold lastExponent at hlt ⊢
      rw [habs] at hlt ⊢
      omega
    have hlog : Int.log 2 x < Int.log 2 y := by
      have hle : Int.log 2 |x| - 52 ≤ lastExponent x := le_max_left _ _
      rw [abs_of_pos hpos] at hle
      omega
    have hbelow : x < 2 ^ Int.log 2 y := by
      exact_mod_cast (Int.lt_zpow_iff_log_lt (b := 2) (by decide) hpos).2 hlog
    have habove : (2 : ℚ) ^ Int.log 2 y ≤ y := by
      exact_mod_cast Int.zpow_log_le_self (b := 2) (by decide) (hpos.trans_le h)
    exact (round_le_zpow hbelow.le (by omega)).trans (zpow_le_round habove (by omega))

/-- **An integer is added without an error** to a rounded number that is at least `2 ^ k`, as long
as the sum stays below `2 ^ (k + 1)`. -/
theorem round_round_add {x : ℚ} {k n : ℤ} (hk : 0 ≤ k) (hk' : k ≤ 52) (hx : 2 ^ k ≤ x)
    (hn : 0 ≤ n) (hsum : round x + n < 2 ^ (k + 1)) : round (round x + n) = round x + n := by
  have hpos : 0 < x := (zpow_pos two_pos k).trans_le hx
  have hlog : k - 52 ≤ lastExponent x := by
    refine le_max_of_le_left (sub_le_sub_right ?_ _)
    rw [abs_of_pos hpos, ← Int.zpow_le_iff_le_log (by decide) hpos]
    exact_mod_cast hx
  -- Both are multiples of `2 ^ (k - 52)`.
  obtain ⟨m, hm⟩ := intCast_mul_zpow_div (nearestEven (x / 2 ^ lastExponent x)) hlog
  obtain ⟨j, hj⟩ := intCast_mul_zpow_div n (e := 0) (d := k - 52) (by omega)
  have hunit : (0 : ℚ) < 2 ^ (k - 52) := zpow_pos two_pos _
  have heq : round x + n = ((m + j : ℤ) : ℚ) * 2 ^ (k - 52) := by
    rw [Int.cast_add, ← hm, ← hj, add_mul, div_mul_cancel₀ _ hunit.ne',
      div_mul_cancel₀ _ hunit.ne', zpow_zero, mul_one, round]
  have hnonneg : (0 : ℚ) ≤ round x + n := add_nonneg (round_nonneg hpos.le) (by exact_mod_cast hn)
  rw [heq] at hsum hnonneg ⊢
  refine round_intMul ?_ (by omega)
  rw [abs_of_nonneg (by exact_mod_cast nonneg_of_mul_nonneg_left hnonneg hunit)]
  rw [show k + 1 = 53 + (k - 52) by omega, zpow_add₀ two_ne_zero] at hsum
  exact_mod_cast lt_of_mul_lt_mul_right hsum hunit.le

/-- Rounding does not cross an integer that is farther away than the error. -/
theorem floor_round {x : ℚ} {n m : ℤ} (hx : |x| < 2 ^ n) (hn : -1021 ≤ n)
    (hlow : m + 2 ^ (n - 54) ≤ x) (hhigh : x + 2 ^ (n - 54) < m + 1) : ⌊round x⌋ = m := by
  have herror := abs_le.1 (abs_round_sub_le hx hn)
  rw [Int.floor_eq_iff]
  constructor <;> linarith [herror.1, herror.2]

end Binary64
