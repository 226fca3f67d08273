import ExposureControl.Numeric.Digits

/-!
# Shortest decimals

The fewest decimal digits that read back to a given binary64 value, and of those the nearest to
it.  A value is decoded exactly; the numbers that round to it form an interval, whose ends belong
to it if the mantissa is even.  For one digit, two digits and so on, the two neighbours of the
value on the grid of that many digits are tested in exact arithmetic.
-/

namespace ExposureControl.Shortest

/-- A decimal number `digits · 10 ^ exponent`. -/
structure Decimal where
  digits : Nat
  exponent : Int
deriving DecidableEq, Repr

/-- A positive binary64 value in quarters of its last place: the value is
`quarters · 2 ^ exponent`, the numbers that round to it lie between `low` and `high` of the same
unit, and `closed` tells whether the ends do too. -/
structure Rounding where
  low : Nat
  quarters : Nat
  high : Nat
  exponent : Int
  closed : Bool

/-- The weight of the mantissa's leading bit, which is not stored. -/
def hidden : Nat := 4503599627370496

/-- Decode the bits of a positive finite value.  Below a power of two the neighbours are only half
as far away. -/
def Rounding.ofBits (bits : UInt64) : Rounding :=
  let field := bits.toNat / hidden % 2048
  let fraction := bits.toNat % hidden
  let mantissa := if field = 0 then fraction else fraction + hidden
  let exponent : Int := (max field 1 : Nat) - 1077
  let narrow := fraction = 0 && field > 1
  { low := if narrow then 4 * mantissa - 1 else 4 * mantissa - 2
    quarters := 4 * mantissa
    high := 4 * mantissa + 2
    exponent
    closed := mantissa % 2 = 0 }

/-- The factors that bring `quarters · 2 ^ exponent` and a multiple of `10 ^ place` to a common
scale. -/
def scales (rounding : Rounding) (place : Int) : Nat × Nat :=
  let two := Nat.pow 2 rounding.exponent.natAbs
  let ten := Nat.pow 10 place.natAbs
  match decide (0 ≤ rounding.exponent), decide (0 ≤ place) with
  | true, true => (two, ten)
  | true, false => (two * ten, 1)
  | false, true => (1, ten * two)
  | false, false => (ten, two)

/-- Whether `candidate · 10 ^ place` rounds to the value. -/
def roundsTo (rounding : Rounding) (place : Int) (candidate : Nat) : Bool :=
  let (left, right) := scales rounding place
  let point := candidate * right
  let low := rounding.low * left
  let high := rounding.high * left
  if rounding.closed then low ≤ point && point ≤ high else low < point && point < high

/-- The grid point of a place that rounds to the value, the nearer one if both neighbours do, and
the upper one at equal distance. -/
def onGrid? (rounding : Rounding) (place : Int) : Option Nat :=
  let (left, right) := scales rounding place
  let value := rounding.quarters * left
  let below := value / right
  let above := below + 1
  match roundsTo rounding place below && 0 < below, roundsTo rounding place above with
  | true, true => some (if above * right - value ≤ value - below * right then above else below)
  | true, false => some below
  | false, true => some above
  | false, false => none

/-- The first grid with a point that rounds to the value, from a place downwards. -/
def search (rounding : Rounding) : (tries : Nat) → (place : Int) → Decimal
  | 0, place => ⟨0, place⟩
  | tries + 1, place =>
    match onGrid? rounding place with
    | some digits => ⟨digits, place⟩
    | none => search rounding tries (place - 1)

def strip : (tries : Nat) → Decimal → Decimal
  | 0, decimal => decimal
  | tries + 1, decimal =>
    if decimal.digits % 10 = 0 && 0 < decimal.digits then
      strip tries ⟨decimal.digits / 10, decimal.exponent + 1⟩
    else decimal

/-- The place of the leading digit, or one above it. -/
def leadingPlace (rounding : Rounding) : Int :=
  let (left, right) := scales rounding (-350)
  ((Nat.toDigits 10 (rounding.quarters * left / right)).length : Int) - 350

/-- The shortest decimal of a positive finite value, given by its bits. -/
def ofBits (bits : UInt64) : Decimal :=
  let rounding := Rounding.ofBits bits
  strip 20 (search rounding 20 (leadingPlace rounding))

end ExposureControl.Shortest
