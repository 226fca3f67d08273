import ExposureControl.Data.Identifier
import ExposureControl.Numeric.Counter
import ExposureControl.Time.Instant
import ExposureControl.Vocabulary

/-!
# Shadow positions

A position that is opened beside live trading without committing capital.  It is closed once, at
a price that crosses its stop or its target.
-/

namespace ExposureControl.Shadow

/-- Whether a position is open. -/
inductive PositionStatus
  | opened
  | closed
deriving DecidableEq, Repr

namespace PositionStatus

def text : PositionStatus → String
  | opened => "OPEN"
  | closed => "CLOSED"

def ofText? : String → Option PositionStatus
  | "OPEN" => some opened
  | "CLOSED" => some closed
  | _ => none

end PositionStatus

/-- What a caller asks for when a position is opened. -/
structure Ticket where
  symbol : String
  side : Side
  entryPrice : Float
  quantity : Float
  stopLoss : Float
  takeProfit : Float

/-- A shadow position.  Records that come from outside may hold any combination of fields. -/
structure Position where
  id : ObjectId
  ticket : Ticket
  openedAt : Instant
  closedAt : Option Instant
  status : PositionStatus
  exitPrice : Option Float
  profit : Option Float
  /-- How often the position was closed, in a half word. -/
  trades : Nat

namespace Position

/-- A new position is open and has no exit. -/
def create (id : ObjectId) (ticket : Ticket) (now : Instant) : Position where
  id
  ticket
  openedAt := now
  closedAt := none
  status := .opened
  exitPrice := none
  profit := none
  trades := 0

def symbol (position : Position) : String := position.ticket.symbol

def isOpen (position : Position) : Bool := position.status = .opened

/-- Whether a price lies at or beyond the stop or the target. -/
def exitTriggered (price : Float) (position : Position) : Bool :=
  let ticket := position.ticket
  match ticket.side with
  | .buy => price ≤ ticket.stopLoss || price ≥ ticket.takeProfit
  | .sell => price ≥ ticket.stopLoss || price ≤ ticket.takeProfit

def profitAt (price : Float) (position : Position) : Float :=
  let ticket := position.ticket
  (price - ticket.entryPrice) * ticket.quantity * ticket.side.sign

def closedAtPrice (price : Float) (now : Instant) (position : Position) : Position :=
  { position with
    exitPrice := some price
    closedAt := some now
    status := .closed
    profit := some (position.profitAt price)
    trades := position.trades + 1 }

/-- Whether the count of closes has room for one more. -/
def countable (position : Position) : Bool := position.trades + 1 < Counter.halfWordSize

/-- Close the position if it is open, with the profit that this realises. -/
def close (price : Float) (now : Instant) (position : Position) :
    Except Fault (Position × Option Float) :=
  if !position.isOpen then .ok (position, none)
  else if position.countable then
    .ok (position.closedAtPrice price now, some (position.profitAt price))
  else .error .counterOverflow

end Position

end ExposureControl.Shadow
