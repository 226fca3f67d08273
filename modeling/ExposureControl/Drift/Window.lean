import ExposureControl.Numeric.Binary64
import ExposureControl.Time.Instant

/-!
# Trade windows

A window holds the latest trades, up to its capacity, and keeps a summary of them at hand: profit
factor, win rate, drawdown and total.  The summary is worked out afresh where trades were added or
dropped, and read off everywhere else.  Room for all trades is set aside at the start.  The running
sums and the drawdown are written over any scalar, so that their laws can be read in exact
arithmetic.
-/

namespace ExposureControl.Drift

/-- Running sums over a sequence of trade results. -/
structure Curve (α : Type) where
  grossProfit : α
  grossLoss : α
  wins : Nat
  /-- The cumulative result. -/
  equity : α
  /-- The highest cumulative result so far, at least zero. -/
  peak : α
  /-- The largest fall from the peak so far. -/
  drawdown : α

namespace Curve

variable {α : Type} [Scalar α]

def start : Curve α := ⟨0.0, 0.0, 0, 0.0, 0.0, 0.0⟩

def extend (curve : Curve α) (result : α) : Curve α :=
  let won := Scalar.less 0.0 result
  let lost := Scalar.less result 0.0
  let equity := curve.equity + result
  let peak := Scalar.larger curve.peak equity
  { grossProfit := if won then curve.grossProfit + result else curve.grossProfit
    grossLoss := if lost then curve.grossLoss + result else curve.grossLoss
    wins := if won then curve.wins + 1 else curve.wins
    equity
    peak
    drawdown := Scalar.larger curve.drawdown (peak - equity) }

def ofResults (results : List α) : Curve α :=
  results.foldl extend start

/-- The largest fall in percent of the highest peak, zero while no peak is positive. -/
def drawdownPercent (curve : Curve α) : α :=
  if Scalar.atMost curve.peak 0.0 then 0.0 else curve.drawdown / curve.peak * 100.0

end Curve

/-- The summary of a window.  An undefined number means that there is not enough data. -/
structure Metrics where
  /-- Gross profit over gross loss, undefined without both wins and losses. -/
  profitFactor : Float
  /-- The part of winning trades, undefined without trades. -/
  winRate : Float
  /-- The largest fall of the cumulative result, in percent of its peak. -/
  maxDrawdown : Float
  total : Float
  count : Nat

namespace Metrics

def empty : Metrics := ⟨Binary64.undefined, Binary64.undefined, 0.0, 0.0, 0⟩

def profitFactorOf (curve : Curve Float) : Float :=
  if curve.grossProfit ≤ 0.0 || curve.grossLoss ≥ 0.0 then Binary64.undefined
  else curve.grossProfit / curve.grossLoss.abs

def ofResults (results : List Float) : Metrics :=
  if results.isEmpty then empty
  else
    let curve := Curve.ofResults results
    { profitFactor := profitFactorOf curve
      winRate := Binary64.ofNat curve.wins / Binary64.ofNat results.length
      maxDrawdown := curve.drawdownPercent
      total := curve.equity
      count := results.length }

end Metrics

structure Trade where
  recordedAt : Instant
  result : Float

/-- The latest trades, oldest first, and their summary as of the last change. -/
structure Window where
  capacity : Nat
  trades : List Trade
  metrics : Metrics

namespace Window

/-- A window without trades, with room for at least one. -/
def empty (capacity : Nat) : Window := ⟨max capacity 1, [], .empty⟩

/-- The number of bytes set aside for a trade: its time and its result, aligned. -/
def tradeBytes : Nat := 24

/-- The most bytes that can be set aside at once. -/
def maxBytes : Nat := 9223372036854775807

/-- Set up a window.  More room than can be addressed is a fault. -/
def create (capacity : Nat) : Except Fault Window :=
  if capacity * tradeBytes ≤ maxBytes then .ok (empty capacity) else .error .windowTooLarge

def recompute (window : Window) : Window :=
  { window with metrics := .ofResults (window.trades.map Trade.result) }

/-- Drop the oldest trades for as long as there are more than there is room for. -/
def evict (room : Nat) : List Trade → List Trade
  | [] => []
  | oldest :: later =>
    if room < (oldest :: later).length then evict room later else oldest :: later

/-- Add a trade; the oldest trades beyond the capacity are dropped. -/
def push (trade : Trade) (window : Window) : Window :=
  recompute { window with trades := evict window.capacity (window.trades ++ [trade]) }

/-- Drop the trades recorded before a cutoff, and count them.  The summary stays where none was
dropped. -/
def pruneBefore (cutoff : Instant) (window : Window) : Window × Nat :=
  let kept := window.trades.filter fun trade => decide (cutoff ≤ trade.recordedAt)
  let removed := window.trades.length - kept.length
  let pruned := { window with trades := kept }
  (if 0 < removed then pruned.recompute else pruned, removed)

def clear (window : Window) : Window := { window with trades := [], metrics := .empty }

def size (window : Window) : Nat := window.trades.length

/-- The last `n` elements of a list. -/
def lastOf {α : Type} (n : Nat) (xs : List α) : List α :=
  xs.drop (xs.length - n)

theorem length_lastOf_le {α : Type} (n : Nat) (xs : List α) : (lastOf n xs).length ≤ n := by
  simp only [lastOf, List.length_drop]
  omega

theorem evict_eq_lastOf (room : Nat) (trades : List Trade) :
    evict room trades = lastOf room trades := by
  induction trades with
  | nil => simp [evict, lastOf]
  | cons oldest later ih =>
    rw [evict]
    split
    · next hover =>
      have hdrop : (oldest :: later).length - room = later.length - room + 1 := by
        rw [List.length_cons] at hover ⊢
        omega
      rw [ih, lastOf, lastOf, hdrop, List.drop_succ_cons]
    · next hroom => rw [lastOf, Nat.sub_eq_zero_of_le (Nat.not_lt.mp hroom), List.drop_zero]

theorem trades_push (trade : Trade) (window : Window) :
    (window.push trade).trades = lastOf window.capacity (window.trades ++ [trade]) :=
  evict_eq_lastOf _ _

/-- A window never holds more trades than its capacity once one was added. -/
theorem length_trades_push_le (trade : Trade) (window : Window) :
    (window.push trade).trades.length ≤ window.capacity := by
  rw [trades_push]
  exact length_lastOf_le _ _

end Window

end ExposureControl.Drift
