import ExposureControl.Data.Table
import ExposureControl.Shadow.Position

/-!
# The shadow book

Every symbol's positions in the order in which they came in.  A price closes all open positions
of its symbol that it triggers, as one step.
-/

namespace ExposureControl.Shadow

/-- Positions by symbol. -/
structure Book where
  positions : Table String (List Position)

namespace Book

def empty : Book := ⟨.empty⟩

def ofSymbol (book : Book) (symbol : String) : List Position :=
  (book.positions.find? symbol).getD []

/-- The symbols that have had positions, in ascending order. -/
def symbols (book : Book) : List String :=
  book.positions.keys.mergeSort fun a b => a ≤ b

def insert (position : Position) (book : Book) : Book :=
  ⟨book.positions.update position.symbol [] (· ++ [position])⟩

def extract (id : ObjectId) : List Position → Option Position × List Position
  | [] => (none, [])
  | position :: rest =>
    if position.id = id then (some position, rest)
    else
      let (found, others) := extract id rest
      (found, position :: others)

/-- Put a position on record as it is given, replacing the one of the same identifier in its
symbol's list, which is returned. -/
def restore (position : Position) (book : Book) : Book × Option Position :=
  let (replaced, others) := extract position.id (book.ofSymbol position.symbol)
  (⟨book.positions.insert position.symbol (others ++ [position])⟩, replaced)

def closes (price : Float) (position : Position) : Bool :=
  position.isOpen && position.exitTriggered price

/-- Close the open positions of a symbol that a price triggers, and give them as they are then. -/
def trigger (symbol : String) (price : Float) (now : Instant) (book : Book) :
    Except Fault (Book × List Position) :=
  match book.positions.find? symbol with
  | none => .ok (book, [])
  | some positions =>
    let closing := positions.filter (closes price)
    let settle := fun (position : Position) =>
      if closes price position then position.closedAtPrice price now else position
    if closing.all Position.countable then
      .ok (⟨book.positions.insert symbol (positions.map settle)⟩,
        closing.map (Position.closedAtPrice price now))
    else .error .counterOverflow

def openCount (book : Book) (symbol : String) : Nat :=
  (book.ofSymbol symbol).countP Position.isOpen

def closedCount (book : Book) (symbol : String) : Nat :=
  (book.ofSymbol symbol).countP fun position => !position.isOpen

/-- Whether a position outlives a cutoff: open positions do, and so do closed ones without a
closing time or with one at or after the cutoff. -/
def outlives (cutoff : Instant) (position : Position) : Bool :=
  position.isOpen || position.closedAt.all fun closedAt => decide (cutoff ≤ closedAt)

def pruneBefore (cutoff : Instant) (book : Book) : Book × Nat :=
  let removed := book.positions.values.flatten.countP fun position => !outlives cutoff position
  (⟨book.positions.mapValues fun _ positions => positions.filter (outlives cutoff)⟩, removed)

end Book

end ExposureControl.Shadow
