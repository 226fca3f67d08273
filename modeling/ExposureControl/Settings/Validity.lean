import ExposureControl.Settings.Basic

/-!
# Validity of settings

Settings that the components cannot work with are refused, with the first flaw in a fixed order.
-/

namespace ExposureControl.Settings

/-- A reason for which settings are refused. -/
inductive Flaw
  | halfLife
  | canaryShare
  | rewardCap
  | windowTrades
  | maxDrop
  | historySize
  | costRetention
deriving DecidableEq, Repr

namespace Flaw

def message : Flaw → String
  | halfLife => "bandit.decay.half_life_days must be within (0, 36500]"
  | canaryShare => "bandit.canary.max_share_pct_per_day must be within [0, 1]"
  | rewardCap => "bandit.reward.cap_r must be > 0"
  | windowTrades => "drift.window_trades must be >= 5"
  | maxDrop => "drift.threshold_pf_drop must be within [0, 1)"
  | historySize => "tca.history_size must be >= 1"
  | costRetention => "tca.retention_days must be >= 1"

/-- Whether settings have the flaw.  An undefined number has the flaw of its field. -/
def present (settings : Settings) : Flaw → Bool
  | halfLife =>
    let days := settings.selection.decay.halfLifeDays
    !(0.0 < days && days ≤ Decay.maxDays)
  | canaryShare =>
    let share := settings.selection.canary.maxSharePerDay
    !(0.0 ≤ share && share ≤ 1.0)
  | rewardCap => !(0.0 < settings.selection.reward.cap)
  | windowTrades => settings.drift.windowTrades < 5
  | maxDrop => !(0.0 ≤ settings.drift.maxDrop && settings.drift.maxDrop < 1.0)
  | historySize => settings.costs.historySize == 0
  | costRetention => settings.costs.retentionDays ≤ 0

/-- All flaws, in the order in which they are looked for. -/
def all : List Flaw :=
  [halfLife, canaryShare, rewardCap, windowTrades, maxDrop, historySize, costRetention]

end Flaw

def flaw? (settings : Settings) : Option Flaw :=
  Flaw.all.find? (Flaw.present settings)

def Valid (settings : Settings) : Prop := settings.flaw? = none

instance (settings : Settings) : Decidable settings.Valid :=
  inferInstanceAs (Decidable (settings.flaw? = none))

theorem valid_iff {settings : Settings} :
    settings.Valid ↔ ∀ flaw, Flaw.present settings flaw = false := by
  unfold Valid flaw?
  rw [List.find?_eq_none]
  constructor
  · intro habsent flaw
    have hmem : flaw ∈ Flaw.all := by cases flaw <;> decide
    exact Bool.eq_false_iff.mpr (habsent flaw hmem)
  · exact fun habsent flaw _ => Bool.eq_false_iff.mp (habsent flaw)

end ExposureControl.Settings
