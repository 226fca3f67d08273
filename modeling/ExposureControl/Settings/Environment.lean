import ExposureControl.Numeric.Decimal
import ExposureControl.Settings.File

/-!
# Settings from the environment

Some settings may be overridden by environment variables after the file is read.  A variable whose
value cannot be read leaves its setting as it is, and a file that cannot be loaded gives the
defaults.  The result is not checked for flaws again.
-/

namespace ExposureControl.Settings

/-- The values of environment variables. -/
abbrev Environment := String → Option String

def pathVariable : String := "GOVERNOR_CONFIG_PATH"

/-- The value of a variable, if it is set and can be read, or else the value so far. -/
def overridden {α : Type} (environment : Environment) (name : String) (read : String → Option α)
    (current : α) : α :=
  ((environment name).bind read).getD current

/-- Read a policy without regard to the case of ASCII letters. -/
def readPolicy? (text : String) : Option Policy :=
  Policy.ofText? (String.ofList (text.toList.map Char.toLower))

def override (environment : Environment) (settings : Settings) : Settings :=
  let selection := settings.selection
  let canary := selection.canary
  { settings with
    selection :=
      { selection with
        enabled :=
          overridden environment "GOVERNOR_BANDIT_ENABLED" Decimal.readBool? selection.enabled
        policy := overridden environment "GOVERNOR_BANDIT_ALGORITHM" readPolicy? selection.policy
        canary :=
          { maxTradesPerDay :=
              overridden environment "GOVERNOR_CANARY_MAX_TRADES_PER_DAY" Decimal.readNat64?
                canary.maxTradesPerDay
            maxSharePerDay :=
              overridden environment "GOVERNOR_CANARY_MAX_SHARE_PER_DAY" Decimal.readFloat?
                canary.maxSharePerDay } }
    shadow :=
      { settings.shadow with
        enabled :=
          overridden environment "GOVERNOR_SHADOW_ENABLED" Decimal.readBool?
            settings.shadow.enabled }
    drift :=
      { settings.drift with
        enabled :=
          overridden environment "GOVERNOR_DRIFT_ENABLED" Decimal.readBool?
            settings.drift.enabled
        autoDowngrade :=
          overridden environment "GOVERNOR_DRIFT_AUTO_DOWNGRADE" Decimal.readBool?
            settings.drift.autoDowngrade }
    costs :=
      { settings.costs with
        enabled :=
          overridden environment "GOVERNOR_TCA_ENABLED" Decimal.readBool?
            settings.costs.enabled } }

/-- The settings of a file, or the defaults if it cannot be loaded, overridden from the
environment; `file` is the text of the file that `pathVariable` names, if it exists. -/
def ofEnvironment (environment : Environment) (file : Option String) : Settings :=
  override environment ((load file).toOption.getD {})

end ExposureControl.Settings
