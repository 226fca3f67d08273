import ExposureControl.Numeric.Scalar

/-!
# Reward tallies

A tally holds weighted sums of rewards and of their squares.  Fading scales all three sums by
one factor, so it changes neither mean nor variance; an observation adds weight one.
-/

namespace ExposureControl

/-- Weighted sums over the rewards of one arm. -/
structure RewardTally (α : Type) where
  weight : α
  sum : α
  squares : α

namespace RewardTally

variable {α : Type} [Scalar α]

def empty : RewardTally α := ⟨0.0, 0.0, 0.0⟩

/-- The tally that stands for `count` rewards of the given mean and variance. -/
def ofMoments (mean variance : α) (count : Nat) : RewardTally α :=
  let weight := Scalar.ofCount count
  ⟨weight, mean * weight, (variance + mean * mean) * weight⟩

/-- The weight below which a tally counts as empty. -/
def minWeight : α := 1e-9

/-- Scale all sums by a factor; what is left of a nearly weightless tally is dropped. -/
def fade (factor : α) (tally : RewardTally α) : RewardTally α :=
  let weight := tally.weight * factor
  if Scalar.less weight minWeight then empty
  else ⟨weight, tally.sum * factor, tally.squares * factor⟩

def observe (reward : α) (tally : RewardTally α) : RewardTally α :=
  ⟨tally.weight + 1.0, tally.sum + reward, tally.squares + reward * reward⟩

def mean (tally : RewardTally α) : α :=
  if Scalar.atMost tally.weight 0.0 then 0.0 else tally.sum / tally.weight

/-- The variance of the rewards, never negative, zero for a tally without weight. -/
def variance (tally : RewardTally α) : α :=
  if Scalar.atMost tally.weight 0.0 then 0.0
  else Scalar.larger (tally.squares / tally.weight - tally.mean * tally.mean) 0.0

end RewardTally

end ExposureControl
