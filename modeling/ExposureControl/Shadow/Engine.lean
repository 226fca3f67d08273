import ExposureControl.Alert
import ExposureControl.Settings.Basic
import ExposureControl.Shadow.Book

/-!
# The shadow engine

The engine runs the shadow book beside live trading and adds up both results per symbol.  Once a
symbol has enough closed shadow trades, every fill that leaves the two too far apart raises an
alert.  Shadow fills are handed on, in order, for the drift monitor to record.
-/

namespace ExposureControl.Shadow

/-- Live and shadow results of one symbol. -/
structure Totals where
  live : Float
  shadow : Float
  /-- Shadow positions ever closed; pruning the book does not lower it. -/
  closedTrades : Nat

namespace Totals

def zero : Totals := ⟨0.0, 0.0, 0⟩

/-- How far shadow results lie above live ones, in percent of the live result, which counts as at
least one. -/
def divergence (totals : Totals) : Float :=
  (totals.shadow - totals.live) / Binary64.larger totals.live.abs 1.0 * 100.0

/-- Whether the totals call for an alert.  An undefined divergence does. -/
def diverges (settings : Settings.Shadow) (totals : Totals) : Bool :=
  !(totals.divergence.abs < settings.divergenceThreshold) &&
    settings.divergenceMinTrades ≤ totals.closedTrades

def alert (symbol : String) (totals : Totals) : Alert :=
  .divergence symbol totals.live totals.shadow totals.divergence

end Totals

/-- A shadow fill as it was booked: its result, and the alert that it raised. -/
structure BookedFill where
  result : Float
  alert : Option Alert

/-- The shadow book, the totals and the count of alerts. -/
structure Engine where
  book : Book
  totals : Table String Totals
  alerts : Nat
  /-- Positions opened so far. -/
  positionsDrawn : Nat

namespace Engine

def empty : Engine := ⟨.empty, .empty, 0, 0⟩

def totalsOf (engine : Engine) (symbol : String) : Totals :=
  (engine.totals.find? symbol).getD .zero

def changeTotals (symbol : String) (f : Totals → Totals) (engine : Engine) : Engine :=
  { engine with totals := engine.totals.update symbol .zero f }

/-- Raise an alert if the engine is switched on and the symbol's totals call for one. -/
def checkDivergence (settings : Settings.Shadow) (symbol : String) (engine : Engine) :
    Engine × Option Alert :=
  let totals := engine.totalsOf symbol
  if settings.enabled && totals.diverges settings then
    ({ engine with alerts := engine.alerts + 1 }, some (totals.alert symbol))
  else (engine, none)

/-- Book the result of a live trade.  A result that is not finite is dropped. -/
def bookLive (settings : Settings.Shadow) (symbol : String) (result : Float) (engine : Engine) :
    Engine × Option Alert :=
  if result.isFinite then
    (engine.changeTotals symbol fun totals =>
      { totals with live := totals.live + result }).checkDivergence settings symbol
  else (engine, none)

/-- Book the result of a shadow trade.  A result that is not finite is dropped. -/
def bookShadow (settings : Settings.Shadow) (symbol : String) (result : Float) (engine : Engine) :
    Engine × Option BookedFill :=
  if result.isFinite then
    let (engine, alert) := (engine.changeTotals symbol fun totals =>
      { totals with shadow := totals.shadow + result }).checkDivergence settings symbol
    (engine, some { result, alert })
  else (engine, none)

/-- Count a close, and book its result. -/
def bookClose (settings : Settings.Shadow) (symbol : String) (result : Float) (engine : Engine) :
    Engine × Option BookedFill :=
  (engine.changeTotals symbol fun totals =>
    { totals with closedTrades := totals.closedTrades + 1 }).bookShadow settings symbol result

def bookCloses (settings : Settings.Shadow) (symbol : String) :
    List Position → Engine → Engine × List BookedFill
  | [], engine => (engine, [])
  | position :: rest, engine =>
    let (engine, fill?) := engine.bookClose settings symbol (position.profit.getD 0.0)
    let (engine, fills) := bookCloses settings symbol rest engine
    (engine, fill?.toList ++ fills)

/-- Whether a ticket can be opened: all its numbers are finite, and price and quantity
positive. -/
def acceptable (ticket : Ticket) : Bool :=
  ticket.entryPrice.isFinite && ticket.quantity.isFinite && ticket.stopLoss.isFinite &&
    ticket.takeProfit.isFinite && !(ticket.entryPrice ≤ 0.0) && !(ticket.quantity ≤ 0.0)

/-- Open a position, unless the engine is switched off or the ticket is unusable. -/
def register (settings : Settings.Shadow) (ticket : Ticket) (now : Instant) (engine : Engine) :
    Engine × Option Position :=
  if settings.enabled && acceptable ticket then
    let position := Position.create (.drawn .positions (engine.positionsDrawn + 1)) ticket now
    ({ engine with
        book := engine.book.insert position
        positionsDrawn := engine.positionsDrawn + 1 }, some position)
  else (engine, none)

/-- Close what a price triggers and book every close.  A price that is not finite is dropped. -/
def priceTick (settings : Settings.Shadow) (symbol : String) (price : Float) (now : Instant)
    (engine : Engine) : Except Fault (Engine × List Position × List BookedFill) :=
  if settings.enabled && price.isFinite then do
    let (book, closed) ← engine.book.trigger symbol price now
    let (engine, fills) := bookCloses settings symbol closed { engine with book }
    return (engine, closed, fills)
  else .ok (engine, [], [])

/-- Put a position on record as it is given.  A close that was not on record before counts as a
closed trade; the results are left alone. -/
def restore (position : Position) (engine : Engine) : Engine :=
  let (book, replaced) := engine.book.restore position
  let engine := { engine with book }
  let known := replaced.any fun before => !before.isOpen
  if position.isOpen || known then engine
  else engine.changeTotals position.symbol fun totals =>
    { totals with closedTrades := totals.closedTrades + 1 }

def pruneExpired (settings : Settings.Shadow) (now : Instant) (engine : Engine) :
    Except Fault (Engine × Nat) := do
  let cutoff ← now.before (← Span.days settings.closedRetentionDays)
  let (book, removed) := engine.book.pruneBefore cutoff
  return ({ engine with book }, removed)

end Engine

/-- What the engine shows of one symbol. -/
structure Status where
  symbol : String
  totals : Totals
  divergence : Float
  openPositions : Nat
  closedPositions : Nat
  /-- Latest opened first; those opened at one time in book order. -/
  positions : List Position

def Engine.status (symbol : String) (engine : Engine) : Status :=
  let totals := engine.totalsOf symbol
  let positions := (engine.book.ofSymbol symbol).mergeSort fun a b =>
    decide (b.openedAt ≤ a.openedAt)
  { symbol
    totals
    divergence := totals.divergence
    openPositions := positions.countP Position.isOpen
    closedPositions := positions.countP fun position => !position.isOpen
    positions }

end ExposureControl.Shadow
