import ExposureControl.Numeric.Scalar

/-!
# Means

Two ways to average a list, which agree in exact arithmetic: a running mean that is corrected at
every element, and the quotient of sum and count.  Neither exists for the empty list.
-/

namespace ExposureControl.Mean

variable {α : Type} [Scalar α]

/-- One correction of a running mean: the `index`-th element moves the mean by its distance
divided by `index`. -/
def correct (mean : α) (index : Nat) (x : α) : α :=
  mean + (x - mean) / Scalar.ofCount index

/-- The running mean after further elements, the next of which has number `index + 1`. -/
def runningFrom (mean : α) (index : Nat) : List α → α
  | [] => mean
  | x :: rest => runningFrom (correct mean (index + 1) x) (index + 1) rest

/-- The running mean of a list, started from zero. -/
def running? : List α → Option α
  | [] => none
  | x :: rest => some (runningFrom 0.0 0 (x :: rest))

def total (xs : List α) : α :=
  xs.foldl (· + ·) 0.0

def plain? : List α → Option α
  | [] => none
  | x :: rest => some (total (x :: rest) / Scalar.ofCount (rest.length + 1))

end ExposureControl.Mean
