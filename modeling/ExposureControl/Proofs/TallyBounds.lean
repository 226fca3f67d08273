import ExposureControl.Arms.Stats
import ExposureControl.Proofs.ExactScalar
import Mathlib.Data.Finset.Max
import Mathlib.Tactic.Linarith
import Mathlib.Tactic.Positivity
import Mathlib.Tactic.Ring

/-!
# The bounds of reward tallies

Fading scales weight, sum and sum of squares by one factor or drops all three, and a reward adds to
each.  Whatever the order of rewards and fadings, the three stay those of a weighted sample: its
weight is at most the number of rewards, its variance is not negative, and its mean lies between
the smallest and the largest reward.  The laws are those of exact arithmetic, for arbitrary factors;
the calls that change statistics go through the same course in binary64.
-/

namespace ExposureControl.RewardTally

variable {α : Type} [Scalar α]

/-! ## The course of a tally -/

/-- A call that changes a tally, with the factor by which the tally first fades if that is due. -/
inductive Change (α : Type)
  | reward (fading : Option α) (reward : α)
  | pull (fading : Option α)
  | decay (fading : Option α)
  | reset

namespace Change

def fading? : Change α → Option α
  | .reward fading _ => fading
  | .pull fading | .decay fading => fading
  | .reset => none

def reward? : Change α → Option α
  | .reward _ gained => some gained
  | _ => none

def isReset : Change α → Bool
  | .reset => true
  | _ => false

end Change

def fadeBy (fading : Option α) (tally : RewardTally α) : RewardTally α :=
  match fading with
  | none => tally
  | some factor => tally.fade factor

def change (tally : RewardTally α) : Change α → RewardTally α
  | .reward fading reward => (tally.fadeBy fading).observe reward
  | .pull fading | .decay fading => tally.fadeBy fading
  | .reset => .empty

def after : List (Change α) → RewardTally α
  | [] => .empty
  | latest :: earlier => (after earlier).change latest

def rewardsOf (changes : List (Change α)) : List α :=
  (changes.takeWhile fun change => !change.isReset).filterMap Change.reward?

omit [Scalar α] in
theorem rewardsOf_cons (latest : Change α) (earlier : List (Change α)) :
    rewardsOf (latest :: earlier) =
      if latest.isReset then [] else latest.reward?.toList ++ rewardsOf earlier := by
  cases latest <;> rfl

end ExposureControl.RewardTally

namespace ExposureControl.Stats

open RewardTally (Change)

/-- The factor by which statistics fade up to a time, if some time has passed. -/
def fading? (halfLife : Span) (now : Instant) (stats : Stats) : Option Float :=
  if stats.idleMillis now ≤ 0 then none else some (fadeFactor halfLife (stats.idleMillis now))

/-- Statistics that calls have led to from empty ones, with the changes to their tally, the newest
first. -/
inductive Reached : List (Change Float) → Stats → Prop
  | start : Reached [] .empty
  | reward {changes stats next reward halfLife now} (past : Reached changes stats)
      (finite : reward.isFinite = true) (step : stats.recordReward reward halfLife now = .ok next) :
      Reached (.reward (stats.fading? halfLife now) reward :: changes) next
  | pull {changes stats next halfLife now} (past : Reached changes stats)
      (step : stats.registerPull halfLife now = .ok next) :
      Reached (.pull (stats.fading? halfLife now) :: changes) next
  | decay {changes stats} (past : Reached changes stats) (halfLife : Span) (now : Instant) :
      Reached (.decay (stats.fading? halfLife now) :: changes) (stats.fade halfLife now)
  | reset {changes stats} (past : Reached changes stats) : Reached (.reset :: changes) .empty

theorem tally_fade (halfLife : Span) (now : Instant) (stats : Stats) :
    (stats.fade halfLife now).tally = stats.tally.fadeBy (stats.fading? halfLife now) := by
  dsimp only [fade, fading?]
  split <;> rfl

theorem registerPull_eq_ok {stats next : Stats} {halfLife : Span} {now : Instant}
    (h : stats.registerPull halfLife now = .ok next) :
    next.tally = (stats.fade halfLife now).tally ∧ next.observations = stats.observations := by
  by_cases hroom : stats.pulls + 1 < Word64.size
  · rw [registerPull_of_lt hroom, Except.ok.injEq] at h
    subst h
    exact ⟨rfl, observations_fade halfLife now stats⟩
  · rw [registerPull_of_le (Nat.not_lt.mp hroom)] at h
    cases h

theorem recordReward_eq_ok {stats next : Stats} {reward : Float} {halfLife : Span} {now : Instant}
    (hfinite : reward.isFinite = true) (h : stats.recordReward reward halfLife now = .ok next) :
    next.tally = (stats.fade halfLife now).tally.observe reward ∧
      next.observations = stats.observations + 1 := by
  by_cases hroom : stats.observations + 1 < Word64.size
  · rw [recordReward_of_lt hfinite hroom, Except.ok.injEq] at h
    subst h
    exact ⟨rfl, rfl⟩
  · rw [recordReward_of_le hfinite (Nat.not_lt.mp hroom)] at h
    cases h

/-- Statistics hold the tally of the changes, and count the rewards since the last reset. -/
theorem Reached.tally_eq {changes : List (Change Float)} {stats : Stats}
    (h : Reached changes stats) :
    stats.tally = RewardTally.after changes ∧
      stats.observations = (RewardTally.rewardsOf changes).length := by
  induction h with
  | start => exact ⟨rfl, rfl⟩
  | reward past finite step ih =>
    obtain ⟨htally, hobservations⟩ := recordReward_eq_ok finite step
    rw [htally, hobservations, tally_fade, ih.1, ih.2]
    exact ⟨rfl, rfl⟩
  | pull past step ih =>
    obtain ⟨htally, hobservations⟩ := registerPull_eq_ok step
    rw [htally, hobservations, tally_fade, ih.1, ih.2]
    exact ⟨rfl, rfl⟩
  | decay past halfLife now ih =>
    rw [tally_fade, observations_fade, ih.1, ih.2]
    exact ⟨rfl, rfl⟩
  | reset => exact ⟨rfl, rfl⟩

end ExposureControl.Stats

namespace ExposureControl.RewardTally

open scoped Exact

variable {K : Type} [Field K] [LinearOrder K] [IsStrictOrderedRing K]

/-! ## Weighted samples -/

/-- The three sums are those of a sample of rewards, each of which counts for at most one. -/
structure Weighs (tally : RewardTally K) (rewards : List K) : Prop where
  weight_nonneg : 0 ≤ tally.weight
  weight_le : tally.weight ≤ rewards.length
  squares_nonneg : 0 ≤ tally.squares
  sum_mul_sum_le : tally.sum * tally.sum ≤ tally.weight * tally.squares
  lower : ∀ bound, (∀ reward ∈ rewards, bound ≤ reward) → bound * tally.weight ≤ tally.sum
  upper : ∀ bound, (∀ reward ∈ rewards, reward ≤ bound) → tally.sum ≤ bound * tally.weight

theorem weight_empty : (empty : RewardTally K).weight = 0 := Exact.zero_literal

theorem sum_empty : (empty : RewardTally K).sum = 0 := Exact.zero_literal

theorem squares_empty : (empty : RewardTally K).squares = 0 := Exact.zero_literal

theorem weight_observe (reward : K) (tally : RewardTally K) :
    (tally.observe reward).weight = tally.weight + 1 :=
  congrArg (tally.weight + ·) Exact.one_literal

omit [IsStrictOrderedRing K] in
theorem fade_cases (factor : K) (tally : RewardTally K) :
    tally.fade factor = .empty ∨
      tally.fade factor = ⟨tally.weight * factor, tally.sum * factor, tally.squares * factor⟩ := by
  dsimp only [fade]
  split
  · exact .inl rfl
  · exact .inr rfl

namespace Weighs

variable {tally : RewardTally K} {rewards : List K} {factor : K}

theorem of_empty (rewards : List K) : Weighs .empty rewards := by
  constructor
  case weight_nonneg => exact weight_empty.ge
  case weight_le => exact weight_empty.trans_le (Nat.cast_nonneg _)
  case squares_nonneg => exact squares_empty.ge
  case sum_mul_sum_le => rw [sum_empty, weight_empty, zero_mul, zero_mul]
  case lower => exact fun bound _ => by rw [weight_empty, sum_empty, mul_zero]
  case upper => exact fun bound _ => by rw [weight_empty, sum_empty, mul_zero]

theorem fade (h : Weighs tally rewards) (hpos : 0 < factor) (hle : factor ≤ 1) :
    Weighs (tally.fade factor) rewards := by
  obtain hdropped | hscaled := fade_cases factor tally
  · rw [hdropped]
    exact of_empty rewards
  · rw [hscaled]
    constructor
    case weight_nonneg => exact mul_nonneg h.weight_nonneg hpos.le
    case weight_le => exact (mul_le_of_le_one_right h.weight_nonneg hle).trans h.weight_le
    case squares_nonneg => exact mul_nonneg h.squares_nonneg hpos.le
    case sum_mul_sum_le =>
      calc tally.sum * factor * (tally.sum * factor)
          = tally.sum * tally.sum * (factor * factor) := by ring
        _ ≤ tally.weight * tally.squares * (factor * factor) :=
          mul_le_mul_of_nonneg_right h.sum_mul_sum_le (mul_self_nonneg factor)
        _ = tally.weight * factor * (tally.squares * factor) := by ring
    case lower =>
      intro bound hbound
      rw [← mul_assoc]
      exact mul_le_mul_of_nonneg_right (h.lower bound hbound) hpos.le
    case upper =>
      intro bound hbound
      rw [← mul_assoc]
      exact mul_le_mul_of_nonneg_right (h.upper bound hbound) hpos.le

theorem fadeBy (h : Weighs tally rewards) {fading : Option K}
    (hfading : ∀ factor ∈ fading, 0 < factor ∧ factor ≤ 1) :
    Weighs (tally.fadeBy fading) rewards := by
  cases fading with
  | none => exact h
  | some factor => exact h.fade (hfading factor rfl).1 (hfading factor rfl).2

theorem two_mul_sum_mul_le (h : Weighs tally rewards) (reward : K) :
    2 * (tally.sum * reward) ≤ tally.weight * (reward * reward) + tally.squares := by
  obtain hnone | hweight := h.weight_nonneg.eq_or_lt
  · have hproduct := h.sum_mul_sum_le
    rw [← hnone, zero_mul] at hproduct
    have hsum : tally.sum = 0 := mul_self_eq_zero.mp (le_antisymm hproduct (mul_self_nonneg _))
    rw [hsum, ← hnone, zero_mul, zero_mul, mul_zero, zero_add]
    exact h.squares_nonneg
  · -- the difference, scaled by the weight, is a square and what the invariant leaves over
    have hsquare := mul_self_nonneg (tally.weight * reward - tally.sum)
    have hproduct := h.sum_mul_sum_le
    exact le_of_mul_le_mul_left (by linarith) hweight

theorem observe (h : Weighs tally rewards) (reward : K) :
    Weighs (tally.observe reward) (reward :: rewards) := by
  constructor
  case weight_nonneg =>
    rw [weight_observe]
    have hweight := h.weight_nonneg
    positivity
  case weight_le =>
    rw [weight_observe, List.length_cons, Nat.cast_succ]
    exact add_le_add_left h.weight_le 1
  case squares_nonneg => exact add_nonneg h.squares_nonneg (mul_self_nonneg reward)
  case sum_mul_sum_le =>
    rw [weight_observe]
    have hcross := h.two_mul_sum_mul_le reward
    calc (tally.sum + reward) * (tally.sum + reward)
        = tally.sum * tally.sum + 2 * (tally.sum * reward) + reward * reward := by ring
      _ ≤ tally.weight * tally.squares + (tally.weight * (reward * reward) + tally.squares) +
          reward * reward := by linarith [h.sum_mul_sum_le]
      _ = (tally.weight + 1) * (tally.squares + reward * reward) := by ring
  case lower =>
    intro bound hbound
    obtain ⟨hreward, hrewards⟩ := List.forall_mem_cons.mp hbound
    rw [weight_observe, mul_add, mul_one]
    exact add_le_add (h.lower bound hrewards) hreward
  case upper =>
    intro bound hbound
    obtain ⟨hreward, hrewards⟩ := List.forall_mem_cons.mp hbound
    rw [weight_observe, mul_add, mul_one]
    exact add_le_add (h.upper bound hrewards) hreward

theorem change (h : Weighs tally rewards) {change : Change K}
    (hfading : ∀ factor ∈ change.fading?, 0 < factor ∧ factor ≤ 1) :
    Weighs (tally.change change)
      (if change.isReset then [] else change.reward?.toList ++ rewards) := by
  cases change with
  | reward fading gained => exact (h.fadeBy hfading).observe gained
  | pull fading | decay fading => exact h.fadeBy hfading
  | reset => exact of_empty []

end Weighs

/-- Along any changes a tally is one of the rewards since the last reset. -/
theorem weighs_after {changes : List (Change K)}
    (hfading : ∀ change ∈ changes, ∀ factor ∈ change.fading?, 0 < factor ∧ factor ≤ 1) :
    Weighs (after changes) (rewardsOf changes) := by
  induction changes with
  | nil => exact .of_empty []
  | cons latest earlier ih =>
    obtain ⟨hlatest, hearlier⟩ := List.forall_mem_cons.mp hfading
    rw [rewardsOf_cons]
    exact (ih hearlier).change hlatest

/-! ## Mean and variance -/

section

variable {tally : RewardTally K} {rewards : List K}

theorem mean_of_pos (hweight : 0 < tally.weight) : tally.mean = tally.sum / tally.weight := by
  rw [mean, Exact.zero_literal, if_neg (by rw [Exact.atMost_iff]; exact hweight.not_ge)]

theorem variance_of_pos (hweight : 0 < tally.weight) :
    tally.variance = max (tally.squares / tally.weight - tally.mean * tally.mean) 0 := by
  rw [variance, Exact.zero_literal, if_neg (by rw [Exact.atMost_iff]; exact hweight.not_ge)]
  rfl

namespace Weighs

theorem mean_mul_mean_le (h : Weighs tally rewards) (hweight : 0 < tally.weight) :
    tally.mean * tally.mean ≤ tally.squares / tally.weight := by
  rw [mean_of_pos hweight, div_mul_div_comm, div_le_div_iff₀ (mul_pos hweight hweight) hweight]
  calc tally.sum * tally.sum * tally.weight
      ≤ tally.weight * tally.squares * tally.weight :=
        mul_le_mul_of_nonneg_right h.sum_mul_sum_le hweight.le
    _ = tally.squares * (tally.weight * tally.weight) := by ring

theorem variance_eq (h : Weighs tally rewards) (hweight : 0 < tally.weight) :
    tally.variance = tally.squares / tally.weight - tally.mean * tally.mean := by
  rw [variance_of_pos hweight, max_eq_left (sub_nonneg.mpr (h.mean_mul_mean_le hweight))]

omit [IsStrictOrderedRing K] in
theorem ne_nil_of_pos (h : Weighs tally rewards) (hweight : 0 < tally.weight) : rewards ≠ [] := by
  rintro rfl
  have hnone := h.weight_le
  rw [List.length_nil, Nat.cast_zero] at hnone
  exact hweight.not_ge hnone

theorem exists_bounds_of_mean (h : Weighs tally rewards) (hweight : 0 < tally.weight) :
    ∃ least greatest, IsLeast {reward | reward ∈ rewards} least ∧
      IsGreatest {reward | reward ∈ rewards} greatest ∧
      least ≤ tally.mean ∧ tally.mean ≤ greatest := by
  have hsome : rewards.toFinset.Nonempty :=
    (List.toFinset_nonempty_iff rewards).mpr (h.ne_nil_of_pos hweight)
  have hleast := rewards.toFinset.isLeast_min' hsome
  have hgreatest := rewards.toFinset.isGreatest_max' hsome
  rw [List.coe_toFinset] at hleast hgreatest
  refine ⟨_, _, hleast, hgreatest, ?_, ?_⟩
  · rw [mean_of_pos hweight, le_div_iff₀ hweight]
    exact h.lower _ fun reward hreward => hleast.2 hreward
  · rw [mean_of_pos hweight, div_le_iff₀ hweight]
    exact h.upper _ fun reward hreward => hgreatest.2 hreward

end Weighs

end

/-- What a tally of rewards keeps to in exact arithmetic. -/
structure Bounded (tally : RewardTally K) (rewards : List K) : Prop where
  weight_nonneg : 0 ≤ tally.weight
  weight_le : tally.weight ≤ rewards.length
  sum_sq_le : tally.sum ^ 2 ≤ tally.weight * tally.squares
  /-- The variance is never raised to zero. -/
  variance_eq : 0 < tally.weight →
    tally.variance = tally.squares / tally.weight - tally.mean ^ 2
  mean_between : 0 < tally.weight →
    ∃ least greatest, IsLeast {reward | reward ∈ rewards} least ∧
      IsGreatest {reward | reward ∈ rewards} greatest ∧
      least ≤ tally.mean ∧ tally.mean ≤ greatest

theorem Weighs.bounded {tally : RewardTally K} {rewards : List K} (h : Weighs tally rewards) :
    Bounded tally rewards where
  weight_nonneg := h.weight_nonneg
  weight_le := h.weight_le
  sum_sq_le := by
    rw [sq]
    exact h.sum_mul_sum_le
  variance_eq hweight := by
    rw [sq]
    exact h.variance_eq hweight
  mean_between := h.exists_bounds_of_mean

/-- Whatever factors from zero to one a tally fades by, and in whatever order rewards, selections,
fadings and resets come, it keeps to its bounds; statistics hold the tally of such a course, and
count its rewards. -/
theorem bounded_after {changes : List (Change K)}
    (hfading : ∀ change ∈ changes, ∀ factor ∈ change.fading?, 0 < factor ∧ factor ≤ 1) :
    Bounded (after changes) (rewardsOf changes) ∧
      ∀ {changes : List (Change Float)} {stats : Stats}, Stats.Reached changes stats →
        stats.tally = after changes ∧ stats.observations = (rewardsOf changes).length :=
  ⟨(weighs_after hfading).bounded, Stats.Reached.tally_eq⟩

/-- Of four rewards one is before the reset and one fades away; two count, the earlier of them for
half. -/
theorem bounded_after_reset_and_drop :
    ∃ changes : List (Change ℚ),
      (∀ change ∈ changes, ∀ factor ∈ change.fading?, 0 < factor ∧ factor ≤ 1) ∧
      rewardsOf changes = [5, 1, 7] ∧ (after changes).weight = 3 / 2 ∧
      (after changes).mean = 11 / 3 ∧ Bounded (after changes) (rewardsOf changes) := by
  let changes : List (Change ℚ) :=
    [.reward (some (1 / 2)) 5, .reward none 1, .pull none, .decay (some (1 / 10000000000)),
      .reward none 7, .reset, .reward none 100]
  have hfading : ∀ change ∈ changes, ∀ factor ∈ change.fading?, 0 < factor ∧ factor ≤ 1 := by
    decide +kernel
  exact ⟨changes, hfading, by decide +kernel, by decide +kernel, by decide +kernel,
    (bounded_after hfading).1⟩

end ExposureControl.RewardTally
