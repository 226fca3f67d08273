import ExposureControl.Arms.RewardTally
import ExposureControl.Numeric.Binary64
import ExposureControl.Numeric.Counter
import ExposureControl.Time.Instant

/-!
# Arm statistics

An arm's statistics are a reward tally that fades with time, two plain counters and the time of
the last change.  Fading is charged for the time since the last change; where time runs
backwards nothing is charged.  Counting past the end of a counter is a fault.
-/

namespace ExposureControl

/-- What is known about the rewards of one arm. -/
structure Stats where
  tally : RewardTally Float
  /-- Selections of the arm, which do not fade. -/
  pulls : Nat
  /-- Rewards seen, which do not fade. -/
  observations : Nat
  lastUpdated : Option Instant

namespace Stats

def empty : Stats := ⟨.empty, 0, 0, none⟩

/-- Statistics that stand for `count` selections and rewards of the given moments. -/
def ofMoments (mean variance : Float) (count : Nat) (now : Instant) : Stats :=
  ⟨.ofMoments mean variance count, count, count, some now⟩

/-- The milliseconds for which fading is due at `now`: those since the last change, and none if
there was no change or it lies ahead. -/
def idleMillis (stats : Stats) (now : Instant) : Int :=
  match stats.lastUpdated with
  | none => 0
  | some last => max 0 (now.since last).wholeMillis

/-- The factor that halves a weight every half-life, which counts as at least one second. -/
def fadeFactor (halfLife : Span) (idle : Int) : Float :=
  Float.pow 0.5 (Binary64.ofInt idle / Binary64.ofInt (max halfLife.wholeMillis 1000))

def fade (halfLife : Span) (now : Instant) (stats : Stats) : Stats :=
  let idle := stats.idleMillis now
  if idle ≤ 0 then stats
  else { stats with tally := stats.tally.fade (fadeFactor halfLife idle) }

def registerPull (halfLife : Span) (now : Instant) (stats : Stats) : Except Fault Stats := do
  let pulls ← Counter.fullWord (stats.pulls + 1)
  return { stats.fade halfLife now with pulls, lastUpdated := some now }

/-- Add a reward.  A reward that is not finite changes nothing. -/
def recordReward (reward : Float) (halfLife : Span) (now : Instant) (stats : Stats) :
    Except Fault Stats :=
  if reward.isFinite then do
    let observations ← Counter.fullWord (stats.observations + 1)
    let faded := stats.fade halfLife now
    return { faded with
      tally := faded.tally.observe reward
      observations
      lastUpdated := some now }
  else .ok stats

@[simp]
theorem pulls_fade (halfLife : Span) (now : Instant) (stats : Stats) :
    (stats.fade halfLife now).pulls = stats.pulls := by
  dsimp only [fade]
  split <;> rfl

@[simp]
theorem observations_fade (halfLife : Span) (now : Instant) (stats : Stats) :
    (stats.fade halfLife now).observations = stats.observations := by
  dsimp only [fade]
  split <;> rfl

theorem registerPull_of_lt {stats : Stats} (h : stats.pulls + 1 < Word64.size) (halfLife : Span)
    (now : Instant) :
    stats.registerPull halfLife now =
      .ok { stats.fade halfLife now with pulls := stats.pulls + 1, lastUpdated := some now } := by
  rw [registerPull, Counter.fullWord_of_lt h]
  rfl

theorem registerPull_of_le {stats : Stats} (h : Word64.size ≤ stats.pulls + 1) (halfLife : Span)
    (now : Instant) : stats.registerPull halfLife now = .error .counterOverflow := by
  rw [registerPull, Counter.fullWord_of_le h]
  rfl

/-- A finite reward is counted where its counter has room for it. -/
theorem recordReward_of_lt {stats : Stats} {reward : Float} (hfinite : reward.isFinite = true)
    (h : stats.observations + 1 < Word64.size) (halfLife : Span) (now : Instant) :
    stats.recordReward reward halfLife now =
      .ok { stats.fade halfLife now with
        tally := (stats.fade halfLife now).tally.observe reward
        observations := stats.observations + 1
        lastUpdated := some now } := by
  rw [recordReward, if_pos hfinite, Counter.fullWord_of_lt h]
  rfl

theorem recordReward_of_le {stats : Stats} {reward : Float} (hfinite : reward.isFinite = true)
    (h : Word64.size ≤ stats.observations + 1) (halfLife : Span) (now : Instant) :
    stats.recordReward reward halfLife now = .error .counterOverflow := by
  rw [recordReward, if_pos hfinite, Counter.fullWord_of_le h]
  rfl

theorem counts_of_recordReward {stats recorded : Stats} {reward : Float} {halfLife : Span}
    {now : Instant} (hfinite : reward.isFinite = true)
    (h : stats.recordReward reward halfLife now = .ok recorded) :
    recorded.pulls = stats.pulls ∧ recorded.observations = stats.observations + 1 := by
  by_cases hroom : stats.observations + 1 < Word64.size
  · rw [recordReward_of_lt hfinite hroom, Except.ok.injEq] at h
    subst h
    exact ⟨pulls_fade halfLife now stats, rfl⟩
  · rw [recordReward_of_le hfinite (Nat.not_lt.mp hroom)] at h
    cases h

def mean (stats : Stats) : Float := stats.tally.mean

def variance (stats : Stats) : Float := stats.tally.variance

def effectiveCount (stats : Stats) : Float := stats.tally.weight

/-- The standard error of the mean, infinite until two rewards were seen. -/
def standardError (stats : Stats) : Float :=
  if stats.observations ≤ 1 then Binary64.infinity
  else (stats.variance / Binary64.larger stats.tally.weight 1.0).sqrt

end Stats

end ExposureControl
