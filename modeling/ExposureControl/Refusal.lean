import ExposureControl.Arms.Arm

/-!
# Refusals

Why a selection or an operator action is refused.  Everything else, such as undefined market data
or missing samples, is absorbed without an error.
-/

namespace ExposureControl

/-- The cause of a refused request. -/
inductive Refusal
  /-- Every arm of the contest is blocked, or held back by the canary budget. -/
  | noEligibleArm (contest : Contest)
  /-- There is no arm of this identifier. -/
  | unknownArm (arm : ObjectId)
  /-- No arm offers this preset. -/
  | unknownPreset (preset : ObjectId)
  /-- No pull of this decision is on record. -/
  | unknownDecision (decision : DecisionId)
  /-- Settings switch selection off. -/
  | selectionDisabled
deriving DecidableEq, Repr

namespace Refusal

def message : Refusal → String
  | noEligibleArm contest =>
    "no eligible arm for " ++ contest.symbol ++ " " ++ contest.regime ++ " " ++ contest.side.text
  | unknownArm arm => "unknown bandit arm: " ++ arm.text
  | unknownPreset preset => "unknown preset: " ++ preset.text
  | unknownDecision decision => "unknown bandit decision: " ++ decision.text
  | selectionDisabled => "bandit selection disabled"

end Refusal

end ExposureControl
