import ExposureControl.Drift.Stage

/-!
# The trading gate

The trading mode and the kill switch, which the drift monitor sets and order placement obeys.
Only an operator releases the kill switch.
-/

namespace ExposureControl

/-- Trading mode and kill switch. -/
structure Gate where
  mode : TradingMode
  killSwitch : Bool
deriving DecidableEq, Repr

namespace Gate

def initial : Gate := ⟨.live, false⟩

/-- Enter a stage: its mode holds, and the last rung activates the kill switch. -/
def enter (stage : Drift.Stage) (gate : Gate) : Gate :=
  { mode := stage.mode, killSwitch := gate.killSwitch || stage = .paused }

@[simp]
theorem mode_enter (stage : Drift.Stage) (gate : Gate) : (gate.enter stage).mode = stage.mode := rfl

/-- Entering a stage never releases the kill switch. -/
theorem killSwitch_enter (stage : Drift.Stage) (gate : Gate) :
    (gate.enter stage).killSwitch = (gate.killSwitch || decide (stage = .paused)) := rfl

end Gate

end ExposureControl
