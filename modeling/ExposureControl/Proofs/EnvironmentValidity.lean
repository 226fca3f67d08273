import ExposureControl.Settings.Environment

/-!
# Validity of settings from the environment

What is loaded is valid, and so are the defaults.  Of all variables only the share of candidates can
bring in a flaw, and it does so exactly where its value is a number that is not a share.
-/

namespace ExposureControl.Settings

variable {settings : Settings}

theorem valid_default : ({} : Settings).Valid := by
  decide +kernel

theorem valid_of_load {file : Option String} (hload : load file = .ok settings) :
    settings.Valid := by
  unfold load at hload
  split at hload
  · cases hload
  · split at hload
    · cases hload
    · split at hload
      · cases hload
      · next hvalid =>
        obtain rfl := Except.ok.inj hload
        exact hvalid

theorem valid_loaded (file : Option String) : ((load file).toOption.getD {}).Valid := by
  cases hload : load file with
  | error => exact valid_default
  | ok settings => exact valid_of_load hload

/-- The variable that sets the daily share of candidates. -/
def shareVariable : String := "GOVERNOR_CANARY_MAX_SHARE_PER_DAY"

theorem present_override {flaw : Flaw} (hflaw : flaw ≠ .canaryShare) (environment : Environment)
    (settings : Settings) :
    Flaw.present (override environment settings) flaw = Flaw.present settings flaw := by
  cases flaw with
  | canaryShare => exact absurd rfl hflaw
  | _ => rfl

theorem present_canaryShare (settings : Settings) :
    Flaw.present settings .canaryShare = false ↔
      0.0 ≤ settings.selection.canary.maxSharePerDay ∧
        settings.selection.canary.maxSharePerDay ≤ 1.0 := by
  unfold Flaw.present
  generalize settings.selection.canary.maxSharePerDay = share
  rw [Bool.not_eq_false', Bool.and_eq_true, decide_eq_true_iff, decide_eq_true_iff]

/-- The share of candidates after overriding is a flaw where the variable has a numeric value
outside the range of shares. -/
theorem present_override_canaryShare (hvalid : settings.Valid) (environment : Environment) :
    Flaw.present (override environment settings) .canaryShare = false ↔
      ∀ share, (environment shareVariable).bind Decimal.readFloat? = some share →
        0.0 ≤ share ∧ share ≤ 1.0 := by
  have hloaded := (present_canaryShare settings).mp (valid_iff.mp hvalid .canaryShare)
  have hoverridden : (override environment settings).selection.canary.maxSharePerDay =
      ((environment shareVariable).bind Decimal.readFloat?).getD
        settings.selection.canary.maxSharePerDay := rfl
  rw [present_canaryShare, hoverridden]
  cases (environment shareVariable).bind Decimal.readFloat? with
  | none => exact ⟨fun _ _ hnumeric => (Option.some_ne_none _ hnumeric.symm).elim, fun _ => hloaded⟩
  | some share =>
    constructor
    · rintro hrange _ hnumeric
      obtain rfl := Option.some.inj hnumeric
      exact hrange
    · exact fun hrange => hrange share rfl

/-- The settings that a program gets from a file and its environment are valid exactly where the
variable of the candidates' share, if it has a numeric value at all, has one from 0 to 1; and there
is no flaw but that of the share. -/
theorem ofEnvironment_valid_iff (environment : Environment) (file : Option String) :
    ((ofEnvironment environment file).Valid ↔
      ∀ share, (environment shareVariable).bind Decimal.readFloat? = some share →
        0.0 ≤ share ∧ share ≤ 1.0) ∧
      ∀ flaw, Flaw.present (ofEnvironment environment file) flaw = true → flaw = .canaryShare := by
  have hloaded := valid_loaded file
  have honly : ∀ flaw, Flaw.present (ofEnvironment environment file) flaw = true →
      flaw = .canaryShare := by
    intro flaw hpresent
    by_cases hflaw : flaw = .canaryShare
    · exact hflaw
    · rw [ofEnvironment, present_override hflaw, valid_iff.mp hloaded flaw] at hpresent
      cases hpresent
  refine ⟨?_, honly⟩
  rw [← present_override_canaryShare hloaded environment, valid_iff]
  constructor
  · exact fun habsent => habsent .canaryShare
  · intro hshare flaw
    cases hpresent : Flaw.present (ofEnvironment environment file) flaw with
    | false => rfl
    | true =>
      rw [honly flaw hpresent] at hpresent
      exact hpresent.symm.trans hshare

/-- A share of five is accepted from the environment without a file, although it is no share. -/
theorem ofEnvironment_accepts_share_above_one :
    ¬ (ofEnvironment (fun name => if name = shareVariable then some "5" else none) none).Valid := by
  decide +kernel

end ExposureControl.Settings
