import ExposureControl.Costs.Summary
import ExposureControl.Settings.Basic

/-!
# The cost desk

The desk remembers submitted orders until they are filled, turns each fill into a sample, and
predicts the slippage of the next order from the samples of the same hour.
-/

namespace ExposureControl.Costs

/-- An order as its submission is reported. -/
structure Submission where
  order : Option String
  symbol : String
  side : Side
  orderType : OrderType
  referencePrice : Option Float
  dailyVolume : Option Float
  averageRange : Option Float
  /-- The clock's time where absent. -/
  submittedAt : Option Instant

/-- An order that waits for its fill. -/
structure PendingOrder where
  symbol : String
  side : Side
  orderType : OrderType
  referencePrice : Option Float
  dailyVolume : Option Float
  averageRange : Option Float
  submittedAt : Instant

structure Desk where
  pending : Table String PendingOrder
  history : History

namespace Desk

def create (settings : Settings.Costs) : Except Fault Desk := do
  let retention ← Span.days settings.retentionDays
  return ⟨.empty, .empty settings.historySize retention⟩

/-- Remember a submission under its order, replacing an earlier one.  It is ignored while the desk
is switched off, or if it names no order. -/
def submit (settings : Settings.Costs) (submission : Submission) (now : Instant) (desk : Desk) :
    Desk :=
  match settings.enabled, submission.order with
  | true, some order =>
    let waiting : PendingOrder :=
      { symbol := submission.symbol
        side := submission.side
        orderType := submission.orderType
        referencePrice := Binary64.finiteOf? submission.referencePrice
        dailyVolume := Binary64.finiteOf? submission.dailyVolume
        averageRange := Binary64.finiteOf? submission.averageRange
        submittedAt := submission.submittedAt.getD now }
    { desk with pending := desk.pending.insert order waiting }
  | _, _ => desk

/-- The reference price of an order, if it is positive. -/
def usableReference? (order : PendingOrder) : Option Float :=
  order.referencePrice.filter fun price => 0.0 < price

def sampleOf (order : PendingOrder) (reference price : Float) (spread : Option Float)
    (filledAt : Instant) : Sample where
  symbol := order.symbol
  side := order.side
  orderType := order.orderType
  filledAt
  slippage := slippageOf order.side reference price
  queueMillis := (filledAt.since order.submittedAt).wholeMillis
  referencePrice := reference
  fillPrice := price
  dailyVolume := order.dailyVolume
  averageRange := order.averageRange
  spread := Binary64.finiteOf? spread

/-- Match a fill to its order.  A price that is not finite leaves the order waiting; any other
fill ends the wait, with a sample if the order had a usable reference price. -/
def fill (settings : Settings.Costs) (order : String) (price : Float) (spread : Option Float)
    (filledAt : Option Instant) (now : Instant) (desk : Desk) :
    Except Fault (Desk × Option Sample) :=
  if settings.enabled && price.isFinite then
    match desk.pending.find? order with
    | none => .ok (desk, none)
    | some waiting =>
      let desk := { desk with pending := desk.pending.erase order }
      match usableReference? waiting with
      | none => .ok (desk, none)
      | some reference => do
        let sample := sampleOf waiting reference price spread (filledAt.getD now)
        let (history, _) ← desk.history.append sample now
        return ({ desk with history }, some sample)
  else .ok (desk, none)

/-- The slippage to expect of an order placed at a time: the mean of its hour, else the mean of the
symbol, else undefined. -/
def expectedSlippage (settings : Settings.Costs) (symbol : String) (orderType : OrderType)
    (time : Instant) (desk : Desk) : Float :=
  if settings.enabled then
    let hourly := desk.history.hourlyAverage symbol orderType time.hour
    if hourly.isNaN then desk.history.average symbol else hourly
  else Binary64.undefined

/-- Expected slippage from which a market order is better placed as a limit order. -/
def marketToLimit : Float := 8.0

/-- Expected slippage below which a limit order is better placed as a market order. -/
def limitToMarket : Float := 4.0

def route (orderType : OrderType) (expected : Float) : OrderType :=
  match orderType with
  | .market => if expected ≥ marketToLimit then .limit else .market
  | .limit => if expected < limitToMarket then .market else .limit

def recommend (settings : Settings.Costs) (symbol : String) (orderType : OrderType)
    (time : Instant) (desk : Desk) : OrderType :=
  route orderType (desk.expectedSlippage settings symbol orderType time)

def keepPending (cutoff : Instant) (pending : Table String PendingOrder) :
    Table String PendingOrder :=
  pending.filter fun _ order => decide (cutoff ≤ order.submittedAt)

/-- Drop samples older than the retention period and orders that waited too long, and count
both. -/
def pruneExpired (settings : Settings.Costs) (now : Instant) (desk : Desk) :
    Except Fault (Desk × Nat) := do
  let (history, samples) ← desk.history.pruneExpired now
  let cutoff ← now.before (← Span.minutes settings.pendingMinutes)
  let pending := keepPending cutoff desk.pending
  return ({ pending, history }, samples + (desk.pending.size - pending.size))

end Desk

end ExposureControl.Costs
