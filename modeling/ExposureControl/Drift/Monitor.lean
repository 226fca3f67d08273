import ExposureControl.Alert
import ExposureControl.Drift.Gate
import ExposureControl.Drift.Window
import ExposureControl.Settings.Basic

/-!
# The drift monitor

Two windows, one of live and one of shadow trades, and a stage.  Every recorded trade evaluates
the live window once it holds enough trades; an evaluation moves the stage by at most one rung,
up if an expectation is missed and back if live results are close to expectations again.
-/

namespace ExposureControl.Drift

/-- The monitor's windows, stage and count of escalations. -/
structure Monitor where
  stage : Stage
  multiplier : Float
  live : Window
  shadow : Window
  downgrades : Nat

/-- Which of the two windows a trade belongs to. -/
inductive Track
  | live
  | shadow
deriving DecidableEq, Repr

namespace Monitor

/-- The monitor before any trade.  Windows with too much room are a fault. -/
def create (settings : Settings.Drift) : Except Fault Monitor := do
  let window ← Window.create settings.windowTrades
  return {
    stage := .normal
    multiplier := Stage.normal.multiplier
    live := window
    shadow := window
    downgrades := 0 }

/-- The live trades without which there is no evaluation. -/
def minTrades (settings : Settings.Drift) : Nat := max 5 (settings.windowTrades / 2)

/-- Whether a value has dropped below a reference by more than the allowed part.  An undefined
value or reference, or one that is not positive, is no ground for saying so. -/
def dropsBelow (actual reference allowed : Float) : Bool :=
  if actual.isNaN || reference.isNaN || reference ≤ 0.0 then false
  else actual < reference * (1.0 - allowed)

def breaches (settings : Settings.Drift) (live shadow : Metrics) : Breaches where
  profitFactor :=
    dropsBelow live.profitFactor shadow.profitFactor settings.maxDrop ||
      dropsBelow live.profitFactor settings.expectedProfitFactor settings.maxDrop
  winRate := live.winRate < settings.expectedWinRate * (1.0 - settings.maxDrop)
  drawdown := live.maxDrawdown > settings.maxDrawdown

/-- Whether live results are close enough to expectations to move back.  Where there is not enough
data there is nothing to hold the stage on. -/
def meetsExpectations (settings : Settings.Drift) (live : Metrics) : Bool :=
  (live.profitFactor.isNaN || live.profitFactor ≥ settings.expectedProfitFactor * 0.9) &&
    (live.winRate.isNaN || live.winRate ≥ settings.expectedWinRate * 0.95) &&
    live.maxDrawdown ≤ settings.maxDrawdown * 0.5

def enter (stage : Stage) (monitor : Monitor) : Monitor :=
  { monitor with stage, multiplier := stage.multiplier }

def haltReason (source target : Stage) : String :=
  "drift watchdog escalated " ++ source.text ++ " -> " ++ target.text

/-- Move one rung up, unless settings forbid it or there is no rung left. -/
def escalate (settings : Settings.Drift) (breaches : Breaches) (monitor : Monitor) (gate : Gate) :
    Monitor × Gate × List Alert :=
  let source := monitor.stage
  let target := source.escalated
  if !settings.autoDowngrade || target = source then (monitor, gate, [])
  else
    ({ monitor.enter target with downgrades := monitor.downgrades + 1 },
      gate.enter target,
      .escalated source target breaches ::
        if target = .paused then [.halted (haltReason source target)] else [])

/-- Move one rung back if there is one and live results allow it. -/
def recover (settings : Settings.Drift) (live : Metrics) (monitor : Monitor) (gate : Gate) :
    Monitor × Gate × List Alert :=
  let source := monitor.stage
  if source = .normal || !meetsExpectations settings live then (monitor, gate, [])
  else
    let target := source.recovered
    (monitor.enter target, gate.enter target, [.recovered source target])

/-- Evaluate the live window if it holds enough trades. -/
def evaluate (settings : Settings.Drift) (monitor : Monitor) (gate : Gate) :
    Monitor × Gate × List Alert :=
  let live := monitor.live.metrics
  if live.count < minTrades settings then (monitor, gate, [])
  else
    let breaches := breaches settings live monitor.shadow.metrics
    if breaches.any then monitor.escalate settings breaches gate
    else monitor.recover settings live gate

def push (track : Track) (trade : Trade) (monitor : Monitor) : Monitor :=
  match track with
  | .live => { monitor with live := monitor.live.push trade }
  | .shadow => { monitor with shadow := monitor.shadow.push trade }

/-- Record a trade and evaluate.  A result that is not finite is dropped, and everything is while
the monitor is switched off. -/
def record (settings : Settings.Drift) (now : Instant) (track : Track) (result : Float)
    (monitor : Monitor) (gate : Gate) : Monitor × Gate × List Alert :=
  if settings.enabled && result.isFinite then
    (monitor.push track ⟨now, result⟩).evaluate settings gate
  else (monitor, gate, [])

/-- Empty both windows and return to the first rung.  Escalations stay counted. -/
def reset (monitor : Monitor) : Monitor :=
  { monitor.enter .normal with live := monitor.live.clear, shadow := monitor.shadow.clear }

/-- Drop the trades of both windows that were recorded before a cutoff, and count them. -/
def pruneBefore (cutoff : Instant) (monitor : Monitor) : Monitor × Nat :=
  let (live, removedLive) := monitor.live.pruneBefore cutoff
  let (shadow, removedShadow) := monitor.shadow.pruneBefore cutoff
  ({ monitor with live, shadow }, removedLive + removedShadow)

def pruneExpired (settings : Settings.Drift) (now : Instant) (monitor : Monitor) :
    Except Fault (Monitor × Nat) := do
  let cutoff ← now.before (← Span.days settings.retentionDays)
  return monitor.pruneBefore cutoff

end Monitor

structure Status where
  stage : Stage
  multiplier : Float
  mode : TradingMode
  killSwitch : Bool
  live : Metrics
  shadow : Metrics
  downgrades : Nat

def Monitor.status (monitor : Monitor) (gate : Gate) : Status where
  stage := monitor.stage
  multiplier := monitor.multiplier
  mode := gate.mode
  killSwitch := gate.killSwitch
  live := monitor.live.metrics
  shadow := monitor.shadow.metrics
  downgrades := monitor.downgrades

end ExposureControl.Drift
