import ExposureControl.Fault
import ExposureControl.Settings.Basic

/-!
# Outcomes and rewards

The result of a trade as it is fed back to the arm that was selected for it.  A reward is the
profit in units of risk, clipped, less penalties for slippage and fees.
-/

namespace ExposureControl

/-- What came of a decision. -/
structure Outcome where
  reward : Float
  profit : Float
  slippage : Float
  fees : Float

namespace Outcome

/-- The outcome with every unusable cost or profit replaced by zero; none if the reward itself is
not finite. -/
def usable? (outcome : Outcome) : Option Outcome :=
  (Binary64.finite? outcome.reward).map fun reward =>
    { reward
      profit := (Binary64.finite? outcome.profit).getD 0.0
      slippage := (Binary64.finite? outcome.slippage).getD 0.0
      fees := (Binary64.finite? outcome.fees).getD 0.0 }

def clip (cap profit : Float) : Except Fault Float :=
  if -cap ≤ cap then .ok (Binary64.confine (-cap) cap profit) else .error .emptyClipRange

/-- Shape a trade result into an outcome.  Values that are missing or not finite count as
zero. -/
def ofTrade (settings : Settings.Reward) (profit slippage fees : Option Float) :
    Except Fault Outcome := do
  let profit := (Binary64.finiteOf? profit).getD 0.0
  let slippage := (Binary64.finiteOf? slippage).getD 0.0
  let fees := (Binary64.finiteOf? fees).getD 0.0
  let clipped ← clip settings.cap profit
  let penalty := settings.slippagePenalty * slippage + settings.feesPenalty * fees
  return { reward := clipped - penalty, profit, slippage, fees }

end Outcome

end ExposureControl
