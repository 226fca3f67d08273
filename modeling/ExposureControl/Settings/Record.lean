import ExposureControl.Data.Dialect
import ExposureControl.Settings.Basic

/-!
# Settings as documents

Settings are read from a document in which every section and every field may be missing, and
unknown fields are ignored.  Defaults of two origins fill the gaps: a section that is missing is
the component's default as a whole, while a field that is missing from a section that is there has
a default of its own.  Nothing in the definitions makes the two agree.  Written settings have every
field.
-/

namespace ExposureControl.Settings

/-! ## Missing fields

What a field stands for in a section that is there and leaves it out. -/

namespace Missing

/-- Every switch is on. -/
def switch : Bool := true

def policy : Policy := .thompson

def halfLifeDays : Float := 21.0

def rewardCap : Float := 3.0

def slippagePenalty : Float := 0.3

def feesPenalty : Float := 0.2

def maxTradesPerDay : Nat := 20

def maxSharePerDay : Float := 0.25

def pullRetentionDays : Int := 90

def seed : Option Nat := none

def divergenceThreshold : Float := 15.0

def divergenceMinTrades : Nat := 10

def closedRetentionDays : Int := 30

def windowTrades : Nat := 40

def maxDrop : Float := 0.25

def maxDrawdown : Float := 8.0

def expectedProfitFactor : Float := 1.3

def expectedWinRate : Float := 0.5

def tradeRetentionDays : Int := 30

def historySize : Nat := 500

def sampleRetentionDays : Int := 7

def pendingMinutes : Int := 60

end Missing

/-! ## Sections -/

def policyOf? (dialect : Dialect) (document : Document) : Option Policy :=
  (dialect.wordOf? document).bind Policy.ofText?

def policyDocument (policy : Policy) : Document := .text policy.text

namespace Decay

def ofDocument? (dialect : Dialect) (document : Document) : Option Decay := do
  let fields ← dialect.fieldsOf? ["half_life_days"] document
  return {
    halfLifeDays :=
      ← Document.fieldOr fields "half_life_days" Missing.halfLifeDays Document.toFloat? }

def toDocument (decay : Decay) : Document :=
  .table [("half_life_days", .float decay.halfLifeDays)]

end Decay

namespace Reward

def ofDocument? (dialect : Dialect) (document : Document) : Option Reward := do
  let fields ← dialect.fieldsOf? ["cap_r", "slippage_penalty_bps", "fees_penalty_bps"] document
  return {
    cap := ← Document.fieldOr fields "cap_r" Missing.rewardCap Document.toFloat?
    slippagePenalty :=
      ← Document.fieldOr fields "slippage_penalty_bps" Missing.slippagePenalty Document.toFloat?
    feesPenalty :=
      ← Document.fieldOr fields "fees_penalty_bps" Missing.feesPenalty Document.toFloat? }

def toDocument (reward : Reward) : Document :=
  .table [("cap_r", .float reward.cap), ("slippage_penalty_bps", .float reward.slippagePenalty),
    ("fees_penalty_bps", .float reward.feesPenalty)]

end Reward

namespace Canary

def ofDocument? (dialect : Dialect) (document : Document) : Option Canary := do
  let fields ← dialect.fieldsOf? ["max_trades_per_day", "max_share_pct_per_day"] document
  return {
    maxTradesPerDay :=
      ← Document.fieldOr fields "max_trades_per_day" Missing.maxTradesPerDay Document.toNat?
    maxSharePerDay :=
      ← Document.fieldOr fields "max_share_pct_per_day" Missing.maxSharePerDay Document.toFloat? }

def toDocument (canary : Canary) : Document :=
  .table [("max_trades_per_day", .nat canary.maxTradesPerDay),
    ("max_share_pct_per_day", .float canary.maxSharePerDay)]

end Canary

namespace Selection

def ofDocument? (dialect : Dialect) (document : Document) : Option Selection := do
  let fields ← dialect.fieldsOf?
    ["enabled", "algorithm", "decay", "reward", "canary", "pull_retention_days",
      "rng_seed"] document
  return {
    enabled := ← Document.fieldOr fields "enabled" Missing.switch Document.toBool?
    policy := ← Document.fieldOr fields "algorithm" Missing.policy (policyOf? dialect)
    decay := ← Document.fieldOr fields "decay" {} (Decay.ofDocument? dialect)
    reward := ← Document.fieldOr fields "reward" {} (Reward.ofDocument? dialect)
    canary := ← Document.fieldOr fields "canary" {} (Canary.ofDocument? dialect)
    pullRetentionDays :=
      ← Document.fieldOr fields "pull_retention_days" Missing.pullRetentionDays Document.toInt?
    seed := ← Document.fieldOr fields "rng_seed" Missing.seed (Document.toOption? Document.toNat?) }

def toDocument (selection : Selection) : Document :=
  .table [("enabled", .bool selection.enabled), ("algorithm", policyDocument selection.policy),
    ("decay", selection.decay.toDocument), ("reward", selection.reward.toDocument),
    ("canary", selection.canary.toDocument),
    ("pull_retention_days", .int selection.pullRetentionDays),
    ("rng_seed", .ofOption .nat selection.seed)]

end Selection

namespace Shadow

def ofDocument? (dialect : Dialect) (document : Document) : Option Shadow := do
  let fields ← dialect.fieldsOf?
    ["enabled", "divergence_pct_threshold", "divergence_min_trades",
      "closed_retention_days"] document
  return {
    enabled := ← Document.fieldOr fields "enabled" Missing.switch Document.toBool?
    divergenceThreshold :=
      ← Document.fieldOr fields "divergence_pct_threshold" Missing.divergenceThreshold
        Document.toFloat?
    divergenceMinTrades :=
      ← Document.fieldOr fields "divergence_min_trades" Missing.divergenceMinTrades Document.toNat?
    closedRetentionDays :=
      ← Document.fieldOr fields "closed_retention_days" Missing.closedRetentionDays
        Document.toInt? }

def toDocument (shadow : Shadow) : Document :=
  .table [("enabled", .bool shadow.enabled),
    ("divergence_pct_threshold", .float shadow.divergenceThreshold),
    ("divergence_min_trades", .nat shadow.divergenceMinTrades),
    ("closed_retention_days", .int shadow.closedRetentionDays)]

end Shadow

namespace Drift

def ofDocument? (dialect : Dialect) (document : Document) : Option Drift := do
  let fields ← dialect.fieldsOf?
    ["enabled", "window_trades", "threshold_pf_drop", "threshold_max_dd_pct",
      "expected_profit_factor", "expected_win_rate", "auto_downgrade", "retention_days"] document
  return {
    enabled := ← Document.fieldOr fields "enabled" Missing.switch Document.toBool?
    windowTrades := ← Document.fieldOr fields "window_trades" Missing.windowTrades Document.toNat?
    maxDrop := ← Document.fieldOr fields "threshold_pf_drop" Missing.maxDrop Document.toFloat?
    maxDrawdown :=
      ← Document.fieldOr fields "threshold_max_dd_pct" Missing.maxDrawdown Document.toFloat?
    expectedProfitFactor :=
      ← Document.fieldOr fields "expected_profit_factor" Missing.expectedProfitFactor
        Document.toFloat?
    expectedWinRate :=
      ← Document.fieldOr fields "expected_win_rate" Missing.expectedWinRate Document.toFloat?
    autoDowngrade := ← Document.fieldOr fields "auto_downgrade" Missing.switch Document.toBool?
    retentionDays :=
      ← Document.fieldOr fields "retention_days" Missing.tradeRetentionDays Document.toInt? }

def toDocument (drift : Drift) : Document :=
  .table [("enabled", .bool drift.enabled), ("window_trades", .nat drift.windowTrades),
    ("threshold_pf_drop", .float drift.maxDrop),
    ("threshold_max_dd_pct", .float drift.maxDrawdown),
    ("expected_profit_factor", .float drift.expectedProfitFactor),
    ("expected_win_rate", .float drift.expectedWinRate),
    ("auto_downgrade", .bool drift.autoDowngrade), ("retention_days", .int drift.retentionDays)]

end Drift

namespace Costs

def ofDocument? (dialect : Dialect) (document : Document) : Option Costs := do
  let fields ← dialect.fieldsOf?
    ["enabled", "history_size", "retention_days", "pending_ttl_minutes"] document
  return {
    enabled := ← Document.fieldOr fields "enabled" Missing.switch Document.toBool?
    historySize := ← Document.fieldOr fields "history_size" Missing.historySize Document.toNat?
    retentionDays :=
      ← Document.fieldOr fields "retention_days" Missing.sampleRetentionDays Document.toInt?
    pendingMinutes :=
      ← Document.fieldOr fields "pending_ttl_minutes" Missing.pendingMinutes Document.toInt? }

def toDocument (costs : Costs) : Document :=
  .table [("enabled", .bool costs.enabled), ("history_size", .nat costs.historySize),
    ("retention_days", .int costs.retentionDays),
    ("pending_ttl_minutes", .int costs.pendingMinutes)]

end Costs

def ofDocument? (dialect : Dialect) (document : Document) : Option Settings := do
  let fields ← dialect.fieldsOf? ["bandit", "shadow", "drift", "tca"] document
  return {
    selection := ← Document.fieldOr fields "bandit" {} (Selection.ofDocument? dialect)
    shadow := ← Document.fieldOr fields "shadow" {} (Shadow.ofDocument? dialect)
    drift := ← Document.fieldOr fields "drift" {} (Drift.ofDocument? dialect)
    costs := ← Document.fieldOr fields "tca" {} (Costs.ofDocument? dialect) }

def toDocument (settings : Settings) : Document :=
  .table [("bandit", settings.selection.toDocument), ("shadow", settings.shadow.toDocument),
    ("drift", settings.drift.toDocument), ("tca", settings.costs.toDocument)]

end ExposureControl.Settings
