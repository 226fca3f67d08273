import ExposureControl.Arms.Arm
import ExposureControl.Numeric.Binary64
import ExposureControl.Shadow.Position

/-!
# Simulation plans

What a simulated session trades: its symbols and steps, the presets that compete on each symbol
with their hidden edge, and the constants of the synthetic market.
-/

namespace ExposureControl.Simulation

/-- What to simulate. -/
structure Plan where
  /-- The seed of the market noise, and of selection where settings have none. -/
  seed : Nat
  symbols : List String
  /-- Decisions per symbol. -/
  steps : Nat
  /-- The step from which the live edge is negative; never, if zero. -/
  degradeAfter : Nat

namespace Plan

/-- The plan of a caller who asks for nothing special. -/
def standard : Plan where
  seed := 42
  symbols := ["BTCUSDT", "ETHUSDT"]
  steps := 300
  degradeAfter := 0

def degraded (plan : Plan) (step : Nat) : Bool :=
  0 < plan.degradeAfter && plan.degradeAfter ≤ step

end Plan

/-- A preset with its hidden expected result, in units of risk. -/
structure Preset where
  offer : Offer
  edge : Float
  /-- The name under which the preset's selections are reported. -/
  label : String

/-- The presets of the symbol at a place in the plan: one in use and two on trial, one of which is
worse. -/
def presetsAt (place : Nat) : List Preset :=
  let id (n : Nat) : ObjectId := .given ⟨(place + 1) * Word64.size + n⟩
  [{ offer := ⟨id 1, .ofActive true⟩, edge := 0.15, label := "baseline:+0.15R" },
    { offer := ⟨id 2, .ofActive false⟩, edge := 0.35, label := "candidate:+0.35R" },
    { offer := ⟨id 3, .ofActive false⟩, edge := -0.2, label := "candidate:-0.20R" }]

def edgeOf (presets : List Preset) (preset : ObjectId) : Float :=
  match presets.find? fun candidate => candidate.offer.preset = preset with
  | some found => found.edge
  | none => 0.0

/-! ## The synthetic market -/

/-- The session starts on 2024-01-01. -/
def startOfSession : Instant := ⟨1704067200000000⟩

/-- A step takes a quarter of an hour. -/
def stepLength : Span := .ofSeconds 900

def stepsPerDay : Nat := 96

/-- The regime of a step: the first half of a day trends, the second ranges. -/
def regimeAt (step : Nat) : String :=
  if step % stepsPerDay < stepsPerDay / 2 then "TREND" else "RANGE"

/-- Whether housekeeping follows a step: the last one of a day. -/
def endsDay (step : Nat) : Bool := step % stepsPerDay == stepsPerDay - 1

def startPrice : Float := 100.0

/-- Expected slippage of an execution style, in basis points. -/
def baseSlippage : OrderType → Float
  | .market => 9.0
  | .limit => 2.0

/-- The slippage of a fill; it is never better than five basis points. -/
def slippageAt (orderType : OrderType) (noise : Float) : Float :=
  Binary64.larger (baseSlippage orderType + 3.0 * noise) (-5.0)

def fillPrice (side : Side) (reference slippage : Float) : Float :=
  reference * (1.0 + side.sign * slippage / 10000.0)

def tradeResult (edge : Float) (degraded : Bool) (noise : Float) : Float :=
  (if degraded then edge - 0.8 else edge) + noise

/-- The price after a step; it stays at one or above. -/
def nextPrice (side : Side) (degraded : Bool) (reference noise : Float) : Float :=
  let drift := if degraded then -0.004 else 0.001
  Binary64.larger (reference * (1.0 + side.sign * drift + 0.012 * noise)) 1.0

/-- The shadow position opened beside a trade, with stop and target one percent away. -/
def shadowTicket (symbol : String) (side : Side) (reference : Float) : Shadow.Ticket where
  symbol
  side
  entryPrice := reference
  quantity := 10.0
  stopLoss := reference * (1.0 - side.sign * 0.01)
  takeProfit := reference * (1.0 + side.sign * 0.01)

end ExposureControl.Simulation
