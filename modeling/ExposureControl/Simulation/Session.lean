import ExposureControl.Governor.Basic
import ExposureControl.Settings.File
import ExposureControl.Simulation.Plan

/-!
# Simulated sessions

A session runs a plan against a governor.  Each step visits every symbol once: a coin picks the
side, the governor selects an arm, and the trade, its costs and its shadow position are reported
back.  All randomness comes from a generator that the session threads through.
-/

namespace ExposureControl.Simulation

/-- Why a session ends early. -/
inductive Failure
  /-- The settings cannot be loaded. -/
  | settings (error : Settings.LoadError)
  /-- The governor refused a request that a session cannot do without. -/
  | refused (refusal : Refusal)
  /-- A value left the domain of an operation. -/
  | fault (fault : Fault)

/-- One symbol of the plan with its presets and its price. -/
structure Lane where
  symbol : String
  presets : List Preset
  price : Float

namespace Lane

def ofSymbols : (place : Nat) → List String → List Lane
  | _, [] => []
  | place, symbol :: rest => ⟨symbol, presetsAt place, startPrice⟩ :: ofSymbols (place + 1) rest

end Lane

structure Session where
  governor : Governor
  noise : Generator
  lanes : List Lane
  /-- Visits on which an arm was selected. -/
  decisions : Nat
  /-- Visits without a selection. -/
  skipped : Nat
  /-- Selections by preset. -/
  pulls : Table ObjectId Nat
  /-- What housekeeping removed in all. -/
  removed : Removals

namespace Session

def start (plan : Plan) (governor : Governor) (noise : Generator) : Session where
  governor
  noise
  lanes := Lane.ofSymbols 0 plan.symbols
  decisions := 0
  skipped := 0
  pulls := .empty
  removed := .none

def draw (session : Session) : Float × Session :=
  let (z, noise) := session.noise.standardNormal
  (z, { session with noise })

def pickSide (session : Session) : Side × Session :=
  let (heads, noise) := session.noise.coin
  (if heads then .buy else .sell, { session with noise })

def skip (session : Session) : Session := { session with skipped := session.skipped + 1 }

def count (preset : ObjectId) (session : Session) : Session :=
  { session with
    decisions := session.decisions + 1
    pulls := session.pulls.update preset 0 (· + 1) }

/-- What the governor does in a session may be a fault. -/
def guarded {α : Type} : Except Fault α → Except Failure α
  | .ok value => .ok value
  | .error fault => .error (.fault fault)

/-- Submit an order in the style that the governor recommends and have it filled; the slippage of
the fill is what is returned. -/
def execute (step : Nat) (lane : Lane) (side : Side) (session : Session) :
    Except Failure (Float × Session) := do
  let governor := session.governor
  let now := governor.clock
  let reference := lane.price
  let orderType := governor.recommend lane.symbol .market now
  let order := lane.symbol ++ "-" ++ Digits.ofNat step
  let governor := governor.submit
    { order := some order
      symbol := lane.symbol
      side
      orderType
      referencePrice := some reference
      dailyVolume := some 1.0e9
      averageRange := some (reference * 0.01)
      submittedAt := some now }
  let (noise, session) := session.draw
  let slippage := slippageAt orderType noise
  let (governor, _) ← guarded
    (governor.fill order (fillPrice side reference slippage) (some (reference * 0.0002))
      (some now))
  return (slippage, { session with governor })

/-- Report the result of a trade, at the size that the governor allows. -/
def settle (lane : Lane) (decision : DecisionId) (result slippage : Float) (session : Session) :
    Except Failure Session := do
  let (governor, recorded) ← guarded
    (session.governor.recordTrade decision (some result) (some slippage) (some 1.0))
  match recorded with
  | .error refusal => throw (.refused refusal)
  | .ok _ =>
    let sizing := governor.sizing
    if 0.0 < sizing then
      return { session with
        governor := governor.reportLive lane.symbol (result * sizing * 10.0) }
    else return { session with governor }

/-- Open a shadow position beside the trade and move the price. -/
def moveMarket (degraded : Bool) (lane : Lane) (side : Side) (session : Session) :
    Except Failure (Lane × Session) := do
  let (governor, _) := session.governor.registerShadow (shadowTicket lane.symbol side lane.price)
  let (noise, session) := session.draw
  let price := nextPrice side degraded lane.price noise
  let (governor, _) ← guarded (governor.priceTick lane.symbol price)
  return ({ lane with price }, { session with governor })

def trade (plan : Plan) (step : Nat) (lane : Lane) (side : Side) (selection : Selection)
    (session : Session) : Except Failure (Lane × Session) := do
  let session := session.count selection.preset
  let (slippage, session) ← session.execute step lane side
  let (noise, session) := session.draw
  let result :=
    tradeResult (edgeOf lane.presets selection.preset) (plan.degraded step) noise
  let session ← session.settle lane selection.decision result slippage
  session.moveMarket (plan.degraded step) lane side

/-- Visit a lane: pick a side, make sure that its arms exist, and trade if trading is allowed and
there is an arm to select. -/
def visit (plan : Plan) (step : Nat) (lane : Lane) (session : Session) :
    Except Failure (Lane × Session) :=
  let (side, session) := session.pickSide
  let regime := regimeAt step
  let contest := Contest.of lane.symbol regime side
  let (governor, _) := session.governor.ensureArms contest (lane.presets.map Preset.offer)
  if !governor.allowTrading then .ok (lane, skip { session with governor })
  else do
    let context :=
      (Context.empty.withText "regime" regime).withNumber "step" (Binary64.ofNat step)
    let (governor, selected) ← guarded (governor.select contest context)
    let session := { session with governor }
    match selected with
    | .ok selection => session.trade plan step lane side selection
    | .error (.noEligibleArm _) => .ok (lane, session.skip)
    | .error refusal => .error (.refused refusal)

def visitAll (plan : Plan) (step : Nat) :
    List Lane → Session → Except Failure (List Lane × Session)
  | [], session => .ok ([], session)
  | lane :: rest, session => do
    let (lane, session) ← session.visit plan step lane
    let (lanes, session) ← visitAll plan step rest session
    return (lane :: lanes, session)

/-- Housekeeping, whose counts add up over the session. -/
def cleanUp (session : Session) : Except Failure Session := do
  let (governor, removals) ← guarded (session.governor.pruneExpired session.governor.clock)
  return { session with governor, removed := session.removed.add removals }

/-- One step: the clock moves on, every lane is visited, and at the end of a day old records are
dropped. -/
def advance (plan : Plan) (step : Nat) (session : Session) : Except Failure Session := do
  let governor ← guarded (session.governor.advance stepLength)
  let (lanes, session) ← visitAll plan step session.lanes { session with governor }
  let session := { session with lanes }
  if endsDay step then session.cleanUp else return session

def runFrom (plan : Plan) : (step remaining : Nat) → Session → Except Failure Session
  | _, 0, session => .ok session
  | step, remaining + 1, session => do
    runFrom plan (step + 1) remaining (← session.advance plan step)

def run (plan : Plan) (session : Session) : Except Failure Session :=
  session.runFrom plan 0 plan.steps

end Session

end ExposureControl.Simulation
