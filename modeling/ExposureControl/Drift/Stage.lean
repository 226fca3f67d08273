/-!
# Drift stages and trading modes

The ladder on which exposure is reduced rung by rung when live results fall behind expectations,
and what each rung means for sizing and for the kind of orders that may be placed.
-/

namespace ExposureControl

/-- What the allocator is allowed to do. -/
inductive TradingMode
  /-- Real orders. -/
  | live
  /-- Shadow positions only. -/
  | shadow
  /-- No new exposure. -/
  | paused
deriving DecidableEq, Repr

namespace TradingMode

def text : TradingMode → String
  | live => "LIVE"
  | shadow => "SHADOW"
  | paused => "PAUSED"

def ofText? : String → Option TradingMode
  | "LIVE" => some live
  | "SHADOW" => some shadow
  | "PAUSED" => some paused
  | _ => none

end TradingMode

namespace Drift

/-- A rung of the ladder. -/
inductive Stage
  | normal
  | reduced
  | shadow
  | paused
deriving DecidableEq, Repr

namespace Stage

def text : Stage → String
  | normal => "NORMAL"
  | reduced => "REDUCED"
  | shadow => "SHADOW"
  | paused => "PAUSED"

def ofText? : String → Option Stage
  | "NORMAL" => some normal
  | "REDUCED" => some reduced
  | "SHADOW" => some shadow
  | "PAUSED" => some paused
  | _ => none

theorem ofText?_text (stage : Stage) : ofText? stage.text = some stage := by
  cases stage <;> rfl

/-- One rung up; the last rung stays. -/
def escalated : Stage → Stage
  | normal => reduced
  | reduced => shadow
  | shadow => paused
  | paused => paused

/-- One rung back; the first rung stays. -/
def recovered : Stage → Stage
  | normal => normal
  | reduced => normal
  | shadow => reduced
  | paused => shadow

def multiplier : Stage → Float
  | normal => 1.0
  | reduced => 0.5
  | shadow => 0.25
  | paused => 0.0

def mode : Stage → TradingMode
  | normal => .live
  | reduced => .live
  | shadow => .shadow
  | paused => .paused

end Stage

end Drift

end ExposureControl
