import ExposureControl.Costs.History

/-!
# Cost summaries

Statistics over the samples of one symbol, or of all, in a range of time.  Overall averages are
running means; hourly ones are quotients of sum and count.
-/

namespace ExposureControl.Costs

/-- Add a value to its hour's list; hours are kept in ascending order. -/
def groupInto {α : Type} (hour : Nat) (value : α) : List (Nat × List α) → List (Nat × List α)
  | [] => [(hour, [value])]
  | (h, values) :: rest =>
    if hour < h then (hour, [value]) :: (h, values) :: rest
    else if h = hour then (h, values ++ [value]) :: rest
    else (h, values) :: groupInto hour value rest

def byHour {α : Type} (rows : List (Nat × α)) : List (Nat × List α) :=
  rows.foldl (fun groups row => groupInto row.1 row.2 groups) []

def hourlyMeans {α : Type} [Scalar α] (rows : List (Nat × α)) : List (Nat × α) :=
  (byHour rows).filterMap fun group => (Mean.plain? group.2).map fun mean => (group.1, mean)

/-- Statistics over matching samples. -/
structure Summary where
  count : Nat
  /-- Mean slippage, undefined without samples. -/
  averageSlippage : Float
  /-- Mean queue time in milliseconds, undefined without samples. -/
  averageQueue : Float
  /-- Mean slippage by UTC hour of day, for the hours that have samples. -/
  hourly : List (Nat × Float)

namespace Summary

/-- Whether a sample lies in a range of time, both of whose ends may be open and belong to it. -/
def inRange (start stop : Option Instant) (sample : Sample) : Bool :=
  start.all (fun start => decide (start ≤ sample.filledAt)) &&
    stop.all fun stop => decide (sample.filledAt ≤ stop)

def ofSamples (samples : List Sample) : Summary where
  count := samples.length
  averageSlippage := (Mean.running? (samples.map Sample.slippage)).getD Binary64.undefined
  averageQueue :=
    (Mean.running? (samples.map fun sample => Binary64.ofInt sample.queueMillis)).getD
      Binary64.undefined
  hourly := hourlyMeans (samples.map fun sample => (sample.hour, sample.slippage))

end Summary

/-- The statistics of one symbol's samples, or of all samples, in a range of time. -/
def History.summary (history : History) (symbol : Option String) (start stop : Option Instant) :
    Summary :=
  let samples := match symbol with
    | some symbol => history.ofSymbol symbol
    | none => history.all
  .ofSamples (samples.filter (Summary.inRange start stop))

end ExposureControl.Costs
