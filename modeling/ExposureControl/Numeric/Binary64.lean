import ExposureControl.Numeric.Scalar
import ExposureControl.Numeric.Word64

/-!
# Binary64

The running scalars.  Market data may carry undefined or infinite values; this module names the
tests and conversions through which they pass, and makes `Float` a `Scalar`.
-/

namespace ExposureControl.Binary64

/-- The undefined value, used where there is not enough data. -/
def undefined : Float := 0.0 / 0.0

def infinity : Float := 1.0 / 0.0

def negInfinity : Float := -1.0 / 0.0

def finite? (x : Float) : Option Float :=
  if x.isFinite then some x else none

def finiteOf? (x : Option Float) : Option Float :=
  x.bind finite?

/-- The larger operand, or the defined one if the other is undefined. -/
def larger (x y : Float) : Float :=
  if x.isNaN then y else if y.isNaN then x else if x < y then y else x

/-- The smaller operand, or the defined one if the other is undefined. -/
def smaller (x y : Float) : Float :=
  if x.isNaN then y else if y.isNaN then x else if y < x then y else x

/-- A natural number, rounded to the nearest binary64 value. -/
def ofNat (n : Nat) : Float :=
  if n < Word64.size then n.toUInt64.toFloat else Float.ofScientific n false 0

/-- An integer, rounded to the nearest binary64 value. -/
def ofInt : Int → Float
  | .ofNat n => ofNat n
  | .negSucc n => -ofNat (n + 1)

/-- Truncation toward zero into the signed 64-bit range: values beyond it give its nearest end,
and an undefined value gives zero. -/
def truncate (x : Float) : Int :=
  if x.isNaN then 0
  else if 9223372036854775808.0 ≤ x then 9223372036854775807
  else if x ≤ -9223372036854775808.0 then -9223372036854775808
  else if x < 0.0 then -((-x).toUInt64.toNat : Int)
  else (x.toUInt64.toNat : Int)

/-- Confine `x` to the range from `low` to `high`.  An undefined `x` stays undefined. -/
def confine (low high x : Float) : Float :=
  if x < low then low else if high < x then high else x

end ExposureControl.Binary64

namespace ExposureControl

instance : Scalar Float where
  ofCount := Binary64.ofNat
  less x y := x < y
  atMost x y := x ≤ y
  larger := Binary64.larger

end ExposureControl
