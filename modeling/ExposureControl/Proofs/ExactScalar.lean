import ExposureControl.Numeric.Scalar
import Mathlib.Algebra.Order.Field.Basic
import Mathlib.Tactic.NormNum

/-!
# Exact scalars

Every ordered field is a scalar type in which sums, quotients and comparisons are exact.  What holds
of a statistic there is what its formula says, without the rounding of binary64 and without
undefined values.
-/

namespace ExposureControl.Exact

-- a field has its operations of its own, so that its lemmas apply to them as they are written
attribute [scoped instance (low)] Scalar.toAdd Scalar.toSub Scalar.toMul Scalar.toDiv
  Scalar.toOfScientific

variable {K : Type} [Field K] [LinearOrder K]

scoped instance : Scalar K where
  ofCount n := n
  less x y := decide (x < y)
  atMost x y := decide (x ≤ y)
  larger := max

theorem atMost_iff {x y : K} : Scalar.atMost x y = true ↔ x ≤ y := decide_eq_true_iff

variable [IsStrictOrderedRing K]

theorem zero_literal : (@OfScientific.ofScientific K Scalar.toOfScientific 0 true 1) = 0 := by
  norm_num

theorem one_literal : (@OfScientific.ofScientific K Scalar.toOfScientific 10 true 1) = 1 := by
  norm_num

theorem hundred_literal :
    (@OfScientific.ofScientific K Scalar.toOfScientific 1000 true 1) = 100 := by
  norm_num

end ExposureControl.Exact
