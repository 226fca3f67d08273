/-!
# Selection policies

The closed set of policies that settings can ask for.
-/

namespace ExposureControl

/-- How an arm is picked among those that compete. -/
inductive Policy
  /-- The mean plus an exploration bonus. -/
  | ucb1
  /-- The mean plus a bonus that the observed variance bounds. -/
  | ucbTuned
  /-- One random draw per arm around its mean. -/
  | thompson
deriving DecidableEq, Repr

namespace Policy

def name : Policy → String
  | ucb1 => "UCB1"
  | ucbTuned => "UCB_TUNED"
  | thompson => "THOMPSON"

def text : Policy → String
  | ucb1 => "ucb1"
  | ucbTuned => "ucb_tuned"
  | thompson => "thompson"

/-- Read a policy from its written form, which is case-sensitive. -/
def ofText? : String → Option Policy
  | "ucb1" => some ucb1
  | "ucb_tuned" => some ucbTuned
  | "thompson" => some thompson
  | _ => none

theorem ofText?_text (policy : Policy) : ofText? policy.text = some policy := by
  cases policy <;> rfl

end Policy

end ExposureControl
