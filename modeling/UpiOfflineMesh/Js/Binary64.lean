import Mathlib.Algebra.Order.Field.Power
import Mathlib.Data.Int.Log
import UpiOfflineMesh.Js.Number

/-!
# Rounding to binary64

A double is a rational with a significand of at most 53 bits, whose last bit is worth at
least `2 ^ (-1074)`. A rational is rounded to the nearest double, ties to the even
significand, and overflows to an infinity. Only the sign of zero is left out.
-/

namespace Js

/-- The nearest integer; of two that are equally near, the even one. -/
def roundEven (r : ℚ) : ℤ :=
  if Int.fract r < 1 / 2 then ⌊r⌋
  else if 1 / 2 < Int.fract r then ⌊r⌋ + 1
  else if ⌊r⌋ % 2 = 0 then ⌊r⌋ else ⌊r⌋ + 1

/-- The exponent of the last bit of a double of this size. -/
def lastBit (q : ℚ) : ℤ := max (Int.log 2 |q| - 52) (-1074)

/-- The nearest double with an exponent of any size. -/
def roundDouble (q : ℚ) : ℚ := roundEven (q / 2 ^ lastBit q) * 2 ^ lastBit q

/-- The double nearest to an exact result. -/
def Number.toDouble : Number → Number
  | .fin q =>
    if |roundDouble q| < 2 ^ 1024 then .fin (roundDouble q)
    else if q < 0 then .negInfinity else .infinity
  | other => other

example : (Number.fin (1 / 10)).toDouble = .fin (3602879701896397 / 36028797018963968) := by
  decide +kernel

/-! ### How far a double is from what it stands for -/

theorem roundEven_intCast (n : ℤ) : roundEven n = n := by
  rw [roundEven, Int.fract_intCast, if_pos (by norm_num), Int.floor_intCast]

/-- The nearest integer is within one half. -/
theorem abs_roundEven_sub_le (r : ℚ) : |(roundEven r : ℚ) - r| ≤ 1 / 2 := by
  have hfract := Int.floor_add_fract r
  have hnonneg := Int.fract_nonneg r
  have hlt := Int.fract_lt_one r
  rw [abs_le, roundEven]
  split
  case isTrue hlow =>
    constructor
    · linarith
    · linarith
  case isFalse hlow =>
    split
    case isTrue hhigh =>
      push_cast
      constructor
      · linarith
      · linarith
    case isFalse hhigh =>
      split
      case isTrue =>
        constructor
        · linarith
        · linarith
      case isFalse =>
        push_cast
        constructor
        · linarith
        · linarith

@[simp] theorem roundDouble_zero : roundDouble 0 = 0 := by
  have hzero : roundEven 0 = 0 := roundEven_intCast 0
  rw [roundDouble, zero_div, hzero, Int.cast_zero, zero_mul]

/-- A double is within half of its last bit. -/
theorem abs_roundDouble_sub_le (q : ℚ) : |roundDouble q - q| ≤ 2 ^ lastBit q / 2 := by
  have hbit : (0 : ℚ) < 2 ^ lastBit q := by positivity
  have hsplit : roundDouble q - q =
      ((roundEven (q / 2 ^ lastBit q) : ℚ) - q / 2 ^ lastBit q) * 2 ^ lastBit q := by
    rw [roundDouble, sub_mul, div_mul_cancel₀ _ hbit.ne']
  rw [hsplit, abs_mul, abs_of_pos hbit]
  have hround := abs_roundEven_sub_le (q / 2 ^ lastBit q)
  calc |(roundEven (q / 2 ^ lastBit q) : ℚ) - q / 2 ^ lastBit q| * 2 ^ lastBit q
      ≤ 1 / 2 * 2 ^ lastBit q := by gcongr
    _ = 2 ^ lastBit q / 2 := by ring

/-- **Relative error:** no more than a unit in the 53rd place, or half of the least bit. -/
theorem abs_roundDouble_sub_le_max (q : ℚ) :
    |roundDouble q - q| ≤ max (|q| * 2 ^ (-53 : ℤ)) (2 ^ (-1075 : ℤ)) := by
  by_cases hzero : q = 0
  · rw [hzero, roundDouble_zero, sub_zero, abs_zero, zero_mul]
    exact le_max_left _ _
  refine (abs_roundDouble_sub_le q).trans ?_
  have hhalf : ∀ e : ℤ, (2 : ℚ) ^ e / 2 = 2 ^ (e - 1) := by
    intro e
    rw [zpow_sub₀ (by norm_num), zpow_one]
  rw [hhalf]
  rcases le_total (Int.log 2 |q| - 52) (-1074) with hsmall | hlarge
  · rw [lastBit, max_eq_right hsmall]
    exact le_max_right _ _
  · rw [lastBit, max_eq_left hlarge]
    refine le_trans ?_ (le_max_left _ _)
    have hlog : (2 : ℚ) ^ Int.log 2 |q| ≤ |q| :=
      Int.zpow_log_le_self (by norm_num) (abs_pos.mpr hzero)
    calc (2 : ℚ) ^ (Int.log 2 |q| - 52 - 1)
        = 2 ^ Int.log 2 |q| * 2 ^ (-53 : ℤ) := by
          rw [← zpow_add₀ (by norm_num)]
          congr 1
          ring
      _ ≤ |q| * 2 ^ (-53 : ℤ) := by gcongr

end Js
