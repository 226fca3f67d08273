import ExposureControl.Arms.Arm
import ExposureControl.Policy
import ExposureControl.Random.Normal

/-!
# Choosing an arm

A policy gives every eligible arm a score, in list order, and the first arm of highest score is
chosen.  Blocked arms neither receive a score nor influence the others' scores, nor do they
consume random draws.
-/

namespace ExposureControl

namespace Stats

/-- The score of an arm without weight under the optimistic policies, so that it is tried
first. -/
def untried : Float := Binary64.infinity

/-- The mean plus a bonus that shrinks with the faded count. -/
def ucb1Score (logTotal : Float) (stats : Stats) : Float :=
  let n := stats.effectiveCount
  if n ≤ 0.0 then untried
  else stats.mean + (2.0 * logTotal / n).sqrt

/-- The mean plus a bonus that the observed variance, or the largest variance of a unit interval,
bounds. -/
def ucbTunedScore (logTotal : Float) (stats : Stats) : Float :=
  let n := stats.effectiveCount
  if n ≤ 0.0 then untried
  else
    let bound := Binary64.smaller (stats.variance + (2.0 * logTotal / n).sqrt) 0.25
    stats.mean + (logTotal / n * bound).sqrt

/-- The variance below which draws do not narrow, so that rarely seen arms keep being tried. -/
def minDrawVariance : Float := 0.01

def priorDeviation : Float := 2.0

def drawMoments (stats : Stats) : Float × Float :=
  let n := stats.effectiveCount
  if n ≤ 0.0 then (0.0, priorDeviation)
  else
    let variance := Binary64.larger stats.variance minDrawVariance
    (stats.mean, (variance / Binary64.larger n 1.0).sqrt)

/-- A draw around the mean.  Where there is no such distribution the mean itself is the score. -/
def drawScore (stats : Stats) (generator : Generator) : Float × Generator :=
  let (mean, deviation) := stats.drawMoments
  (generator.normal? mean deviation).getD (mean, generator)

end Stats

namespace Policy

def score (policy : Policy) (logTotal : Float) (stats : Stats) (generator : Generator) :
    Float × Generator :=
  match policy with
  | ucb1 => (stats.ucb1Score logTotal, generator)
  | ucbTuned => (stats.ucbTunedScore logTotal, generator)
  | thompson => stats.drawScore generator

/-- The logarithm of the total faded count of the eligible arms, which counts as at least one. -/
def logTotal (arms : List Arm) : Float :=
  let total := ((arms.filter Arm.eligible).map fun arm => arm.stats.effectiveCount).foldl
    (· + ·) 0.0
  (Binary64.larger total 2.718281828459045).log

/-- The scores of the eligible arms with their places in the list; the first arm has place
`index`. -/
def scores (policy : Policy) (logTotal : Float) :
    (index : Nat) → List Arm → Generator → List (Nat × Float) × Generator
  | _, [], generator => ([], generator)
  | index, arm :: rest, generator =>
    if arm.eligible then
      let (value, generator) := policy.score logTotal arm.stats generator
      let (others, generator) := scores policy logTotal (index + 1) rest generator
      ((index, value) :: others, generator)
    else scores policy logTotal (index + 1) rest generator

/-- Keep the better of two scored places: the later one unless its score is at most the earlier
one's. -/
def better (best : Option (Nat × Float)) (next : Nat × Float) : Option (Nat × Float) :=
  match best with
  | none => some next
  | some current => if next.2 ≤ current.2 then some current else some next

/-- The first place of highest score. -/
def leader (scored : List (Nat × Float)) : Option Nat :=
  (scored.foldl better none).map Prod.fst

/-- Choose among arms: the place of the chosen arm, if any is eligible, and the generator after
the draws. -/
def choose (policy : Policy) (arms : List Arm) (generator : Generator) :
    Option Nat × Generator :=
  let (scored, generator) := policy.scores (logTotal arms) 0 arms generator
  (leader scored, generator)

end Policy

end ExposureControl
