import GreenThreads.Clock
import Mathlib.Algebra.Group.Int.Defs

/-!
# Instants on a line

The clock is a circle of 64 bits and durations stop at the ends of the range. Here the operations on
`Nanos` are described in the integers: what saturates, and how far apart two instants may be so that
the wrapped comparison is that of the integer times that they stand for.
-/

namespace GreenThreads.Nanos

/-! ## Saturation -/

theorem toInt_clamp (n : Int) : (clamp n).toInt = max (-2 ^ 63) (min n (2 ^ 63 - 1)) := by
  unfold clamp Int64.ofIntClamp
  have hmin := Int64.toInt_minValue
  have hmax := Int64.toInt_maxValue
  split
  · split
    · rw [Int64.toInt_ofIntLE]; omega
    · omega
  · omega

theorem toInt_satAdd (a b : Nanos) :
    (a.satAdd b).toInt = max (-2 ^ 63) (min (a.toInt + b.toInt) (2 ^ 63 - 1)) := toInt_clamp _

theorem toInt_satMul (a b : Nanos) :
    (a.satMul b).toInt = max (-2 ^ 63) (min (a.toInt * b.toInt) (2 ^ 63 - 1)) := toInt_clamp _

theorem toInt_min (a b : Nanos) : (min a b).toInt = min a.toInt b.toInt := by
  have h : min a b = if a ≤ b then a else b := rfl
  rw [h]
  split
  · next hle => rw [Int64.le_iff_toInt_le] at hle; omega
  · next hle => rw [Int64.le_iff_toInt_le] at hle; omega

theorem toInt_max (a b : Nanos) : (max a b).toInt = max a.toInt b.toInt := by
  have h : max a b = if a ≤ b then b else a := rfl
  rw [h]
  split
  · next hle => rw [Int64.le_iff_toInt_le] at hle; omega
  · next hle => rw [Int64.le_iff_toInt_le] at hle; omega

/-! ## Sums and differences that do not wrap -/

theorem toInt_add_of_range {a b : Nanos} (hl : -2 ^ 63 ≤ a.toInt + b.toInt)
    (hu : a.toInt + b.toInt < 2 ^ 63) : (a + b).toInt = a.toInt + b.toInt := by
  rw [Int64.toInt_add, Int.bmod_eq_of_le] <;> omega

theorem toInt_sub_of_range {a b : Nanos} (hl : -2 ^ 63 ≤ a.toInt - b.toInt)
    (hu : a.toInt - b.toInt < 2 ^ 63) : (a - b).toInt = a.toInt - b.toInt := by
  rw [Int64.toInt_sub, Int.bmod_eq_of_le] <;> omega

/-! ## Integer times -/

/-- The instant of the circle at an integer time. -/
def instant (n : Int) : Nanos := Int64.ofInt n

theorem toInt_instant_sub {m n : Int} (hl : -2 ^ 63 ≤ m - n) (hu : m - n < 2 ^ 63) :
    (instant m - instant n).toInt = m - n := by
  unfold instant
  rw [← Int64.ofInt_sub, Int64.toInt_ofInt_of_le hl hu]

/-- Two instants that are less than half the circle apart are compared as their times. -/
theorem before_instant {m n : Int} (hl : -2 ^ 63 ≤ m - n) (hu : m - n < 2 ^ 63) :
    (instant m).before (instant n) = decide (m < n) := by
  have h := toInt_instant_sub hl hu
  simp only [before, Int64.lt_iff_toInt_lt, h, Int64.toInt_zero, decide_eq_decide]
  omega

/-- A deadline that lies less than half the circle after `n` is pulled in to a quarter of it. -/
theorem normalize_instant {n d : Int} (hl : -2 ^ 63 ≤ d - n) (hu : d - n < 2 ^ 63) :
    normalize (instant n) (instant d) = instant (min d (n + (2 ^ 62 - 1))) := by
  have h := toInt_instant_sub hl hu
  have hmax : maxDelay.toInt = 2 ^ 62 - 1 := by decide
  simp only [normalize, GT.gt, Int64.lt_iff_toInt_lt, h, hmax]
  split
  · rw [Int.min_eq_right (by omega)]
    simp only [instant, Int64.ofInt_add]
    rfl
  · rw [Int.min_eq_left (by omega)]

end GreenThreads.Nanos
