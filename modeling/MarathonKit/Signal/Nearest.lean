import Mathlib.Algebra.Order.Round
import Mathlib.Tactic.Linarith
import Mathlib.Tactic.Ring

/-!
The nearest integer, with halves away from zero.

Mathlib's `round` takes halves upwards; the two agree where nothing is negative.
There, rounding passes an integer half a step before the number does
(`roundAway_lt_iff`), and never by more.
-/

namespace Signal

variable {K : Type} [Field K] [LinearOrder K] [FloorRing K]

/-- The integer nearest to `x`, the one further from zero if there are two. -/
def roundAway (x : K) : ℤ := if x < 0 then -round (-x) else round x

variable {x : K} {n : ℤ}

theorem roundAway_of_nonneg (nonneg : 0 ≤ x) : roundAway x = round x :=
  if_neg (not_lt.mpr nonneg)

variable [IsStrictOrderedRing K]

theorem abs_sub_roundAway (x : K) : |x - roundAway x| ≤ 1 / 2 := by
  unfold roundAway
  split
  · have mirrored : x - ((-round (-x) : ℤ) : K) = -(-x - round (-x)) := by
      push_cast
      ring
    rw [mirrored, abs_neg]
    exact abs_sub_round (-x)
  · exact abs_sub_round x

theorem roundAway_lt_iff (nonneg : 0 ≤ x) : roundAway x < n ↔ x < n - 1 / 2 := by
  rw [roundAway_of_nonneg nonneg, round_eq, Int.floor_lt, lt_sub_iff_add_lt]

theorem roundAway_nonneg (nonneg : 0 ≤ x) : 0 ≤ roundAway x := by
  rw [roundAway_of_nonneg nonneg, round_eq]
  exact Int.floor_nonneg.mpr (add_nonneg nonneg (by norm_num))

theorem roundAway_le (nonneg : 0 ≤ x) (below : x < n) : roundAway x ≤ n := by
  apply Int.lt_add_one_iff.mp
  rw [roundAway_lt_iff nonneg]
  push_cast
  linarith

end Signal
