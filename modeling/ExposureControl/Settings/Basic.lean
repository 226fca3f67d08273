import ExposureControl.Numeric.Binary64
import ExposureControl.Policy
import ExposureControl.Time.Instant

/-!
# Settings

All settings, by component.  The defaults stated with the fields make up a whole component; they
hold where nothing is said about it.  What stands in for single fields of a component about which
something is said is a matter of reading.

Counts are unsigned 64-bit numbers and retention periods signed ones; neither bound is part of the
types, since only reading and writing enforce them.
-/

namespace ExposureControl

namespace Settings

/-- How fast reward statistics fade. -/
structure Decay where
  /-- Days after which an observation counts half. -/
  halfLifeDays : Float := 21.0

/-- How a trade result becomes a reward. -/
structure Reward where
  /-- Symmetric clip on the profit, in units of risk. -/
  cap : Float := 3.0
  /-- Penalty per basis point of slippage. -/
  slippagePenalty : Float := 0.3
  /-- Penalty per basis point of fees. -/
  feesPenalty : Float := 0.2

/-- The daily budget of candidate arms, per symbol. -/
structure Canary where
  maxTradesPerDay : Nat := 20
  /-- The part of a day's selections, from 0 to 1, at which candidates are shut out. -/
  maxSharePerDay : Float := 0.25

structure Selection where
  enabled : Bool := true
  policy : Policy := .thompson
  decay : Decay := {}
  reward : Reward := {}
  canary : Canary := {}
  pullRetentionDays : Int := 90
  /-- A fixed seed makes draws repeatable. -/
  seed : Option Nat := none

/-- The shadow book and its divergence alerts. -/
structure Shadow where
  enabled : Bool := true
  /-- Divergence, in percent, from which an alert is raised. -/
  divergenceThreshold : Float := 15.0
  /-- Closed shadow trades that a symbol needs before alerts are raised. -/
  divergenceMinTrades : Nat := 10
  closedRetentionDays : Int := 30

structure Drift where
  enabled : Bool := true
  /-- Trades in each rolling window. -/
  windowTrades : Nat := 40
  /-- Relative drop of profit factor or win rate that counts as a breach. -/
  maxDrop : Float := 0.25
  /-- Drawdown, in percent of the peak, above which there is a breach. -/
  maxDrawdown : Float := 8.0
  expectedProfitFactor : Float := 1.3
  expectedWinRate : Float := 0.5
  /-- Whether breaches move the stage at all. -/
  autoDowngrade : Bool := true
  retentionDays : Int := 30

structure Costs where
  enabled : Bool := true
  /-- Samples kept per symbol. -/
  historySize : Nat := 500
  retentionDays : Int := 7
  /-- Minutes after which a submission without a fill is forgotten. -/
  pendingMinutes : Int := 60

end Settings

structure Settings where
  selection : Settings.Selection := {}
  shadow : Settings.Shadow := {}
  drift : Settings.Drift := {}
  costs : Settings.Costs := {}

namespace Settings

def Decay.maxDays : Float := 36500.0

/-- The half-life as a span: whole seconds, at least one, at most the longest allowed.  An
undefined half-life gives the empty span. -/
def Decay.halfLife (decay : Decay) : Span :=
  let seconds := decay.halfLifeDays * 24.0 * 3600.0
  let longest := maxDays * 24.0 * 3600.0
  .ofSeconds (Binary64.truncate (Binary64.confine 1.0 longest seconds))

end Settings

end ExposureControl
