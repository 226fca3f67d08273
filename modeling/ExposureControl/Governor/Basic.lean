import ExposureControl.Arms.Arena
import ExposureControl.Costs.Desk
import ExposureControl.Drift.Monitor
import ExposureControl.Shadow.Engine

/-!
# The governor

The governor joins the arena, the cost desk, the shadow engine and the drift monitor around one
clock, one gate and one notifier.  Live results go both to the divergence check and to the live
drift window; shadow results, explicit or from closes, go to the totals first and then to the
shadow drift window.

Calls are carried out one after the other; what happens when they overlap is not modelled.  Nor are
logs and metrics, which no part of the program reads back.
-/

namespace ExposureControl

structure Governor where
  settings : Settings
  seeding : Seeding
  clock : Instant
  arena : Arena
  costs : Costs.Desk
  shadow : Shadow.Engine
  monitor : Drift.Monitor
  gate : Gate
  notifier : Notifier

/-- What one pass of housekeeping removed. -/
structure Removals where
  costs : Nat
  drift : Nat
  shadow : Nat
  pulls : Nat
deriving DecidableEq, Repr

namespace Removals

def none : Removals := ⟨0, 0, 0, 0⟩

def total (removals : Removals) : Nat :=
  removals.costs + removals.drift + removals.shadow + removals.pulls

def add (a b : Removals) : Removals :=
  ⟨a.costs + b.costs, a.drift + b.drift, a.shadow + b.shadow, a.pulls + b.pulls⟩

end Removals

namespace Governor

/-- A governor before anything happened.  A cost retention period too long for a span is a
fault, and so are trade windows with too much room. -/
def create (settings : Settings) (entropy : Seeding) (notifier : Notifier) (clock : Instant) :
    Except Fault Governor := do
  let costs ← Costs.Desk.create settings.costs
  let monitor ← Drift.Monitor.create settings.drift
  return {
    settings
    seeding := .ofSettings settings.selection entropy
    clock
    arena := .empty
    costs
    shadow := .empty
    monitor
    gate := .initial
    notifier }

def publish (alerts : List Alert) (governor : Governor) : Governor :=
  { governor with
    notifier := alerts.foldl (fun notifier alert => notifier.publish alert) governor.notifier }

/-! ## Selection -/

def withArena {α : Type} (f : Arena → Arena × α) (governor : Governor) : Governor × α :=
  let (arena, answer) := f governor.arena
  ({ governor with arena }, answer)

/-- Make a change to the arena that may be a fault, and keep what it answers. -/
def tryArena {α : Type} (f : Arena → Except Fault (Arena × α)) (governor : Governor) :
    Except Fault (Governor × α) := do
  let (arena, answer) ← f governor.arena
  return ({ governor with arena }, answer)

def withRegistry {α : Type} (f : Registry → Registry × α) (governor : Governor) : Governor × α :=
  governor.withArena (Arena.withRegistry f)

/-- Make a change to the registry that may be a fault, and keep what it answers. -/
def tryRegistry {α : Type} (f : Registry → Except Fault (Registry × α)) (governor : Governor) :
    Except Fault (Governor × α) :=
  governor.tryArena (Arena.tryRegistry f)

def registry (governor : Governor) : Registry := governor.arena.registry

/-- How many identifiers every supply has given out. -/
def drawn (governor : Governor) : Supply → Nat
  | .arms => governor.registry.armsDrawn
  | .decisions => governor.arena.decisionsDrawn
  | .positions => governor.shadow.positionsDrawn

def ensureArms (contest : Contest) (offers : List Offer) (governor : Governor) :
    Governor × List Arm :=
  governor.withRegistry (Registry.ensureArms contest offers governor.clock)

def select (contest : Contest) (context : Context) (governor : Governor) :
    Except Fault (Governor × Except Refusal Selection) :=
  governor.tryArena
    (Arena.select governor.settings.selection governor.seeding governor.clock contest context)

def recordOutcome (decision : DecisionId) (outcome : Outcome) (governor : Governor) :
    Except Fault (Governor × Except Refusal (Option Pull)) :=
  governor.tryArena
    (Arena.recordOutcome governor.settings.selection governor.clock decision outcome)

def recordTrade (decision : DecisionId) (profit slippage fees : Option Float)
    (governor : Governor) : Except Fault (Governor × Except Refusal (Option Pull)) := do
  let outcome ← Outcome.ofTrade governor.settings.selection.reward profit slippage fees
  governor.recordOutcome decision outcome

def candidatesAllowed (symbol : String) (governor : Governor) : Bool :=
  governor.arena.candidatesAllowed governor.settings.selection symbol governor.clock

def overview (symbol : String) (governor : Governor) : Except Fault Overview :=
  governor.arena.overview governor.settings.selection symbol governor.clock

/-! ## Live and shadow results -/

def recordTradeResult (track : Drift.Track) (result : Float) (governor : Governor) : Governor :=
  let (monitor, gate, alerts) :=
    governor.monitor.record governor.settings.drift governor.clock track result governor.gate
  { governor with monitor, gate }.publish alerts

/-- Publish a booked shadow fill's alert and hand its result to the drift monitor. -/
def forwardFill (governor : Governor) (fill : Shadow.BookedFill) : Governor :=
  (governor.publish fill.alert.toList).recordTradeResult .shadow fill.result

def bookLive (symbol : String) (result : Float) (governor : Governor) : Governor :=
  let (shadow, alert) := governor.shadow.bookLive governor.settings.shadow symbol result
  { governor with shadow }.publish alert.toList

def reportLive (symbol : String) (result : Float) (governor : Governor) : Governor :=
  (governor.bookLive symbol result).recordTradeResult .live result

def reportShadow (symbol : String) (result : Float) (governor : Governor) : Governor :=
  let (shadow, fill?) := governor.shadow.bookShadow governor.settings.shadow symbol result
  fill?.toList.foldl forwardFill { governor with shadow }

def registerShadow (ticket : Shadow.Ticket) (governor : Governor) :
    Governor × Option Shadow.Position :=
  let (shadow, position) :=
    governor.shadow.register governor.settings.shadow ticket governor.clock
  ({ governor with shadow }, position)

def priceTick (symbol : String) (price : Float) (governor : Governor) :
    Except Fault (Governor × List Shadow.Position) := do
  let (shadow, closed, fills) ←
    governor.shadow.priceTick governor.settings.shadow symbol price governor.clock
  return (fills.foldl forwardFill { governor with shadow }, closed)

def restorePosition (position : Shadow.Position) (governor : Governor) : Governor :=
  { governor with shadow := governor.shadow.restore position }

/-! ## Drift -/

def driftStatus (governor : Governor) : Drift.Status := governor.monitor.status governor.gate

def allowTrading (governor : Governor) : Bool := governor.monitor.stage ≠ .paused

def sizing (governor : Governor) : Float := governor.monitor.multiplier

/-- Return to the first rung with empty windows.  The kill switch stays as it is. -/
def resetMonitor (governor : Governor) : Governor :=
  { governor with
    monitor := governor.monitor.reset
    gate := governor.gate.enter .normal }

def setKillSwitch (active : Bool) (governor : Governor) : Governor :=
  { governor with gate := { governor.gate with killSwitch := active } }

def setMode (mode : TradingMode) (governor : Governor) : Governor :=
  { governor with gate := { governor.gate with mode } }

/-! ## Costs -/

def submit (submission : Costs.Submission) (governor : Governor) : Governor :=
  { governor with
    costs := governor.costs.submit governor.settings.costs submission governor.clock }

def fill (order : String) (price : Float) (spread : Option Float) (filledAt : Option Instant)
    (governor : Governor) : Except Fault (Governor × Option Costs.Sample) := do
  let (costs, sample) ←
    governor.costs.fill governor.settings.costs order price spread filledAt governor.clock
  return ({ governor with costs }, sample)

def expectedSlippage (symbol : String) (orderType : OrderType) (time : Instant)
    (governor : Governor) : Float :=
  governor.costs.expectedSlippage governor.settings.costs symbol orderType time

def recommend (symbol : String) (orderType : OrderType) (time : Instant) (governor : Governor) :
    OrderType :=
  governor.costs.recommend governor.settings.costs symbol orderType time

/-! ## Time -/

def advance (span : Span) (governor : Governor) : Except Fault Governor := do
  let clock ← governor.clock.after span
  return { governor with clock }

/-- Drop what is older than its retention period, component by component, as seen from `now`. -/
def pruneExpired (now : Instant) (governor : Governor) : Except Fault (Governor × Removals) := do
  let (costs, removedCosts) ← governor.costs.pruneExpired governor.settings.costs now
  let (monitor, removedDrift) ← governor.monitor.pruneExpired governor.settings.drift now
  let (shadow, removedShadow) ← governor.shadow.pruneExpired governor.settings.shadow now
  let cutoff ← now.before (← Span.days governor.settings.selection.pullRetentionDays)
  let (registry, removedPulls) := governor.registry.prunePulls cutoff
  return ({ governor with costs, monitor, shadow, arena := { governor.arena with registry } },
    { costs := removedCosts, drift := removedDrift, shadow := removedShadow,
      pulls := removedPulls })

end Governor

end ExposureControl
