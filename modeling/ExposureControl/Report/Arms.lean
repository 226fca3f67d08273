import ExposureControl.Arms.Arena
import ExposureControl.Data.Dialect
import ExposureControl.Time.Text

/-!
# Reports on selection

The documents under which arms, pulls, selections and ledgers are shown.  A ledger is also read
back from its document.
-/

namespace ExposureControl

def Instant.toDocument (t : Instant) : Document := .text t.text

def Stats.toDocument (stats : Stats) : Document :=
  .table [("total_weight", .float stats.tally.weight), ("sum_rewards", .float stats.tally.sum),
    ("sum_squares", .float stats.tally.squares), ("pulls", .nat stats.pulls),
    ("reward_observations", .nat stats.observations),
    ("last_updated", .ofOption Instant.toDocument stats.lastUpdated)]

def Arm.toDocument (arm : Arm) : Document :=
  .table [("id", .text arm.id.text), ("symbol", .text arm.contest.symbol),
    ("regime", .text arm.contest.regime), ("side", .text arm.contest.side.text),
    ("preset_id", .text arm.preset.text), ("status", .text arm.status.text),
    ("role", .text arm.role.text), ("stats", arm.stats.toDocument),
    ("created_at", arm.createdAt.toDocument), ("updated_at", arm.updatedAt.toDocument)]

def Feature.toDocument : Feature → Document
  | number value => .float value
  | text value => .text value

def Context.toDocument (context : Context) : Document :=
  .table (context.features.entries.map fun entry => (entry.1, entry.2.toDocument))

def Outcome.toDocument (outcome : Outcome) : Document :=
  .table [("reward", .float outcome.reward), ("pnl_r", .float outcome.profit),
    ("slippage_bps", .float outcome.slippage), ("fees_bps", .float outcome.fees)]

/-- The document of a pull, whose outcome fields are null until it is resolved. -/
def Pull.toDocument (pull : Pull) : Document :=
  let part (f : Outcome → Float) : Document := .ofOption (fun outcome => .float (f outcome))
    pull.outcome
  .table [("id", .nat pull.serial), ("arm_id", .text pull.arm.text),
    ("timestamp", pull.loggedAt.toDocument), ("decision_id", .text pull.decision.text),
    ("context", pull.context.toDocument), ("reward", part Outcome.reward),
    ("pnl_r", part Outcome.profit), ("slippage_bps", part Outcome.slippage),
    ("fees_bps", part Outcome.fees), ("symbol", .text pull.contest.symbol),
    ("regime", .text pull.contest.regime), ("side", .text pull.contest.side.text),
    ("role", .text pull.role.text)]

def Selection.toDocument (selection : Selection) : Document :=
  .table [("arm_id", .text selection.arm.text), ("preset_id", .text selection.preset.text),
    ("role", .text selection.role.text), ("decision_id", .text selection.decision.text),
    ("context", selection.context.toDocument)]

def Ledger.toDocument (ledger : Ledger) : Document :=
  .table [("day", .text ledger.day.text), ("total_pulls", .nat ledger.total),
    ("candidate_pulls", .nat ledger.candidates)]

/-- Read a ledger that a caller hands over.  Every field has to be there. -/
def Ledger.ofDocument? (document : Document) : Option Ledger := do
  let fields ← Dialect.json.fieldsOf? ["day", "total_pulls", "candidate_pulls"] document
  let date ← Document.required fields "day" fun day => day.toText?.bind Date.ofText?
  return {
    day := date.toDay
    total := ← Document.required fields "total_pulls" Document.toNat?
    candidates := ← Document.required fields "candidate_pulls" Document.toNat? }

def Overview.toDocument (overview : Overview) : Document :=
  .table [("enabled", .bool overview.enabled), ("algorithm", .text overview.policy.name),
    ("symbol", .text overview.symbol), ("arms", .nat overview.arms),
    ("eligible_arms", .nat overview.eligible), ("blocked_arms", .nat overview.blocked),
    ("total_pulls", .nat overview.pulls),
    ("total_reward_observations", .nat overview.observations),
    ("canary", overview.ledger.toDocument), ("candidate_share", .float overview.ledger.share),
    ("generated_at", overview.generatedAt.toDocument)]

end ExposureControl
