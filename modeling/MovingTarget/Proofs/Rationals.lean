import Mathlib
import MovingTarget.Scalar
/-!
# Exact scalars

Rational numbers are scalars without rounding. All of them are numbers, so the smaller and the
greater of two and the nearest point of the unit interval are what they are in any linear order.
-/
namespace MovingTarget

instance : Scalar ℚ where
  ofCount := Nat.cast
  whole x := ⌊x⌋₊
  fixed places x := (Decimal.fixed places (decide (x < 0)) x.num.natAbs x.den).text
  plain := toString

namespace Scalar
variable {x y : ℚ}

theorem rat_zero : (0.0 : ℚ) = 0 := by norm_num

theorem rat_one : (1.0 : ℚ) = 1 := by norm_num

theorem isNumber_rat (x : ℚ) : isNumber x = true := decide_eq_true (le_refl x)

theorem least_eq_min (x y : ℚ) : least x y = min x y := by
  rw [least, if_pos (isNumber_rat y)]
  split
  · next h => exact (min_eq_left h.le).symm
  · next h => exact (min_eq_right (not_lt.1 h)).symm

theorem greatest_eq_max (x y : ℚ) : greatest x y = max x y := by
  rw [greatest, if_pos (isNumber_rat y)]
  split
  · next h => exact (max_eq_left h.le).symm
  · next h => exact (max_eq_right (not_lt.1 h)).symm

theorem distance_eq_abs (x y : ℚ) : distance x y = |x - y| := by
  rw [distance, rat_zero]
  split
  · next h => exact (abs_of_neg h).symm
  · next h => exact (abs_of_nonneg (not_lt.1 h)).symm

theorem unit_eq_max (x : ℚ) : unit x = max 0 (min x 1) := by
  rw [unit, if_pos (isNumber_rat x), rat_zero, rat_one]
  split
  · next h => exact (max_eq_left ((min_le_left x 1).trans h.le)).symm
  · next h =>
    have hnonneg : 0 ≤ x := not_lt.1 h
    split
    · next h' => rw [min_eq_right h'.le, max_eq_right zero_le_one]
    · next h' => rw [min_eq_left (not_lt.1 h'), max_eq_right hnonneg]

theorem unit_nonneg (x : ℚ) : 0 ≤ unit x := by
  rw [unit_eq_max]
  exact le_max_left _ _

theorem unit_le_one (x : ℚ) : unit x ≤ 1 := by
  rw [unit_eq_max]
  exact max_le zero_le_one (min_le_right _ _)

theorem unit_of_mem (hzero : 0 ≤ x) (hone : x ≤ 1) : unit x = x := by
  rw [unit_eq_max, min_eq_left hone, max_eq_right hzero]

theorem unit_mono (h : x ≤ y) : unit x ≤ unit y := by
  rw [unit_eq_max, unit_eq_max]
  exact max_le_max_left 0 (min_le_min_right 1 h)

end Scalar
end MovingTarget
