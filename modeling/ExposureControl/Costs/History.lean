import ExposureControl.Costs.Sample
import ExposureControl.Data.Table
import ExposureControl.Numeric.Mean

/-!
# Sample histories

Every symbol's samples in the order in which they were filled in, bounded in number and age.
Symbols are told apart without regard to the case of ASCII letters.
-/

namespace ExposureControl.Costs

/-- The key of a symbol: ASCII letters in upper case, everything else as it is. -/
def symbolKey (symbol : String) : String :=
  String.ofList (symbol.toList.map Char.toUpper)

/-- Samples by symbol, with their bounds. -/
structure History where
  capacity : Nat
  retention : Span
  samples : Table String (List Sample)

namespace History

/-- A history without samples, with room for at least one per symbol. -/
def empty (capacity : Nat) (retention : Span) : History := ⟨max capacity 1, retention, .empty⟩

/-- The samples of a symbol, in the order in which they came in. -/
def ofSymbol (history : History) (symbol : String) : List Sample :=
  (history.samples.find? (symbolKey symbol)).getD []

/-- All samples, symbol by symbol.  Symbols come in ascending order here; callers may rely on the
order of one symbol's samples only. -/
def all (history : History) : List Sample :=
  (history.samples.keys.mergeSort fun a b => a ≤ b).flatMap fun key =>
    (history.samples.find? key).getD []

def keepFrom (cutoff : Instant) (samples : List Sample) : List Sample :=
  samples.filter fun sample => decide (cutoff ≤ sample.filledAt)

/-- The list after one more sample: the oldest ones beyond the capacity go first, then those
before the cutoff. -/
def extend (capacity : Nat) (cutoff : Instant) (sample : Sample) (samples : List Sample) :
    List Sample :=
  let longer := samples ++ [sample]
  keepFrom cutoff (longer.drop (longer.length - capacity))

def append (sample : Sample) (now : Instant) (history : History) :
    Except Fault (History × Nat) := do
  let cutoff ← now.before history.retention
  let before := history.ofSymbol sample.symbol
  let after := extend history.capacity cutoff sample before
  return ({ history with samples := history.samples.insert (symbolKey sample.symbol) after },
    before.length + 1 - after.length)

def size (history : History) (symbol : String) : Nat := (history.ofSymbol symbol).length

def isEmpty (history : History) : Bool := history.samples.values.all List.isEmpty

/-- Mean slippage of samples, undefined where there are none. -/
def meanSlippage (samples : List Sample) : Float :=
  (Mean.plain? (samples.map Sample.slippage)).getD Binary64.undefined

def average (history : History) (symbol : String) : Float :=
  meanSlippage (history.ofSymbol symbol)

/-- Mean slippage of a symbol's samples of one execution style and hour of day. -/
def hourlyAverage (history : History) (symbol : String) (orderType : OrderType) (hour : Nat) :
    Float :=
  meanSlippage ((history.ofSymbol symbol).filter fun sample =>
    sample.orderType = orderType ∧ sample.hour = hour)

def pruneExpired (now : Instant) (history : History) : Except Fault (History × Nat) := do
  let cutoff ← now.before history.retention
  let removed := history.samples.values.flatten.countP fun sample =>
    decide (sample.filledAt < cutoff)
  return ({ history with
    samples := history.samples.mapValues fun _ samples => keepFrom cutoff samples }, removed)

end History

end ExposureControl.Costs
