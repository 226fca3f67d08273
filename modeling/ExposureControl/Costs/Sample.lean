import ExposureControl.Numeric.Binary64
import ExposureControl.Time.Calendar
import ExposureControl.Vocabulary

/-!
# Slippage samples

A sample compares the price at which an order was filled with the reference price at which it was
submitted.  Slippage is positive where the fill was worse.
-/

namespace ExposureControl.Costs

/-- One observed fill. -/
structure Sample where
  symbol : String
  side : Side
  orderType : OrderType
  filledAt : Instant
  /-- Slippage in basis points of the reference price. -/
  slippage : Float
  /-- Milliseconds between submission and fill. -/
  queueMillis : Int
  referencePrice : Float
  fillPrice : Float
  dailyVolume : Option Float
  averageRange : Option Float
  spread : Option Float

namespace Sample

def hour (sample : Sample) : Nat := sample.filledAt.hour

end Sample

/-- Signed slippage in basis points of the reference price. -/
def slippageOf (side : Side) (reference fill : Float) : Float :=
  let difference := match side with
    | .buy => fill - reference
    | .sell => reference - fill
  difference / reference * 10000.0

end ExposureControl.Costs
