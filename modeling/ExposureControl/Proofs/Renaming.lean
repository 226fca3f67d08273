import ExposureControl.Governor.Command
import Mathlib.Data.Nat.Count
import Mathlib.Logic.Embedding.Basic

/-!
# Renaming what was drawn

A renaming gives other serial numbers to the arms and the decisions that were drawn and to the pulls
that were logged, and touches nothing else.  The renaming of interest is that of one symbol: what
was drawn for it is numbered as if nothing had been drawn for the others.
-/

namespace ExposureControl

namespace Identifier

variable {α : Type} {supply : Supply} {change : Nat → Nat}

def renumber (supply : Supply) (change : Nat → Nat) : Identifier α → Identifier α
  | .drawn other serial => .drawn other (if other = supply then change serial else serial)
  | .given value => .given value

@[simp]
theorem renumber_drawn (serial : Nat) :
    (drawn supply serial : Identifier α).renumber supply change =
      .drawn supply (change serial) := by
  simp [renumber]

theorem renumber_injective (hchange : Function.Injective change) :
    Function.Injective (renumber supply change : Identifier α → Identifier α) := by
  intro first second hsame
  cases first with
  | given value =>
    cases second with
    | given other => exact hsame
    | drawn other serial => cases hsame
  | drawn other serial =>
    cases second with
    | given value => cases hsame
    | drawn another number =>
      obtain ⟨rfl, hserials⟩ := Identifier.drawn.inj hsame
      split at hserials
      · rw [hchange hserials]
      · rw [hserials]

end Identifier

/-- Other serial numbers for what a registry draws and logs. -/
structure Renaming where
  arms : Nat ↪ Nat
  decisions : Nat ↪ Nat
  pulls : Nat ↪ Nat

namespace Renaming

variable (names : Renaming)

def ofArmId : ObjectId → ObjectId := Identifier.renumber .arms names.arms

def ofDecision : DecisionId → DecisionId := Identifier.renumber .decisions names.decisions

def ofArm (arm : Arm) : Arm := { arm with id := names.ofArmId arm.id }

def ofPull (pull : Pull) : Pull :=
  { pull with
    serial := names.pulls pull.serial
    arm := names.ofArmId pull.arm
    decision := names.ofDecision pull.decision }

def ofSelection (selection : Selection) : Selection :=
  { selection with
    arm := names.ofArmId selection.arm
    decision := names.ofDecision selection.decision }

def ofRefusal : Refusal → Refusal
  | .unknownArm id => .unknownArm (names.ofArmId id)
  | .unknownDecision decision => .unknownDecision (names.ofDecision decision)
  | refusal => refusal

/-- What may have been refused, with the refusal and the answer renamed. -/
def ofResult {α β : Type} (rename : α → β) : Except Refusal α → Except Refusal β
  | .error refusal => .error (names.ofRefusal refusal)
  | .ok answer => .ok (rename answer)

def ofReply : Reply → Reply
  | .arm arm => .arm (names.ofArm arm)
  | .arms arms => .arms (arms.map names.ofArm)
  | .selection selection => .selection (names.ofSelection selection)
  | .pull pull => .pull (pull.map names.ofPull)
  | reply => reply

def ofCommand : Command → Command
  | .restoreArm arm => .restoreArm (names.ofArm arm)
  | .recordOutcome decision outcome => .recordOutcome (names.ofDecision decision) outcome
  | .recordTrade decision profit slippage fees =>
    .recordTrade (names.ofDecision decision) profit slippage fees
  | .setStatus id status => .setStatus (names.ofArmId id) status
  | .logPull arm decision context halfLife time =>
    .logPull (names.ofArmId arm) (names.ofDecision decision) context halfLife time
  | .applyReward decision outcome halfLife time =>
    .applyReward (names.ofDecision decision) outcome halfLife time
  | command => command

theorem ofArmId_injective : Function.Injective names.ofArmId :=
  Identifier.renumber_injective names.arms.injective

theorem ofDecision_injective : Function.Injective names.ofDecision :=
  Identifier.renumber_injective names.decisions.injective

@[simp] theorem ofArm_id (arm : Arm) : (names.ofArm arm).id = names.ofArmId arm.id := rfl

@[simp] theorem ofArm_contest (arm : Arm) : (names.ofArm arm).contest = arm.contest := rfl

@[simp] theorem ofArm_preset (arm : Arm) : (names.ofArm arm).preset = arm.preset := rfl

@[simp] theorem ofArm_role (arm : Arm) : (names.ofArm arm).role = arm.role := rfl

@[simp] theorem ofArm_stats (arm : Arm) : (names.ofArm arm).stats = arm.stats := rfl

@[simp] theorem ofArm_eligible (arm : Arm) : (names.ofArm arm).eligible = arm.eligible := rfl

theorem ofResult_map {α β γ δ : Type} {rename : α → β} {wrap : α → γ} {wrap' : β → δ}
    {rename' : γ → δ} (hwrap : ∀ answer, wrap' (rename answer) = rename' (wrap answer))
    (result : Except Refusal α) :
    (names.ofResult rename result).map wrap' = names.ofResult rename' (result.map wrap) := by
  cases result with
  | error refusal => rfl
  | ok answer => exact congrArg Except.ok (hwrap answer)

end Renaming

/-! ## The share of a symbol -/

/-- The serial numbers of one supply that were drawn for a symbol, out of finitely many. -/
structure Share where
  own : Nat → Bool
  bound : Nat
  positive : own 0 = false
  le_bound : ∀ {serial : Nat}, own serial = true → serial ≤ bound

namespace Share

variable (share : Share) {serial first last : Nat}

/-- How many of the first serial numbers are the symbol's. -/
def rank (drawn : Nat) : Nat := Nat.count (fun serial => share.own serial = true) (drawn + 1)

theorem rank_zero : share.rank 0 = 0 := by
  simp [rank, Nat.count_succ, share.positive]

theorem rank_succ_of_own (hown : share.own (serial + 1) = true) :
    share.rank (serial + 1) = share.rank serial + 1 := by
  rw [rank, Nat.count_succ, if_pos hown, rank]

theorem rank_succ_of_not_own (hown : share.own (serial + 1) = false) :
    share.rank (serial + 1) = share.rank serial := by
  rw [rank, Nat.count_succ, if_neg (by simp [hown]), rank, Nat.add_zero]

theorem rank_eq (hle : first ≤ last)
    (hothers : ∀ serial, first < serial → serial ≤ last → share.own serial = false) :
    share.rank last = share.rank first := by
  induction last, hle using Nat.le_induction with
  | base => rfl
  | succ last hle ih =>
    calc share.rank (last + 1)
        = share.rank last :=
          share.rank_succ_of_not_own (hothers (last + 1) (Nat.lt_succ_of_le hle) (Nat.le_refl _))
      _ = share.rank first :=
          ih fun serial hfirst hlast => hothers serial hfirst (Nat.le_succ_of_le hlast)

theorem rank_injective (hfirst : share.own first = true) (hlast : share.own last = true)
    (hrank : share.rank first = share.rank last) : first = last := by
  rw [rank, rank, Nat.count_succ, Nat.count_succ, if_pos hfirst, if_pos hlast] at hrank
  exact Nat.count_injective hfirst hlast (Nat.add_right_cancel hrank)

/-- The symbol's serial numbers without gaps, and the others after them. -/
def renumber : Nat ↪ Nat where
  toFun serial :=
    if share.own serial then share.rank serial else share.rank share.bound + 1 + serial
  inj' := by
    have hle : ∀ {serial}, share.own serial = true → share.rank serial ≤ share.rank share.bound :=
      fun hown => Nat.count_monotone _ (Nat.succ_le_succ (share.le_bound hown))
    intro first last hsame
    dsimp only at hsame
    split at hsame
    · next hfirst =>
      split at hsame
      · next hlast => exact share.rank_injective hfirst hlast hsame
      · have := hle hfirst
        omega
    · split at hsame
      · next hlast =>
        have := hle hlast
        omega
      · omega

theorem renumber_succ (hown : share.own (serial + 1) = true) :
    share.renumber (serial + 1) = share.rank serial + 1 :=
  (if_pos hown).trans (share.rank_succ_of_own hown)

/-- A share with what is drawn next added, if it is the symbol's. -/
def extend (last : Nat) (mine : Bool) : Share where
  own serial := if serial ≤ share.bound then share.own serial else mine && serial ≤ last
  bound := max share.bound last
  positive := by simp [share.positive]
  le_bound {serial} hown := by
    split at hown
    · next hold => exact Nat.le_trans hold (Nat.le_max_left _ _)
    · rw [Bool.and_eq_true, decide_eq_true_eq] at hown
      exact Nat.le_trans hown.2 (Nat.le_max_right _ _)

theorem own_extend_of_le {mine : Bool} (hold : serial ≤ share.bound) :
    (share.extend last mine).own serial = share.own serial :=
  if_pos hold

theorem own_extend_of_lt {mine : Bool} (hnew : share.bound < serial) (hlast : serial ≤ last) :
    (share.extend last mine).own serial = mine := by
  simp [extend, Nat.not_le_of_lt hnew, hlast]

def empty : Share := ⟨fun _ => false, 0, rfl, nofun⟩

end Share

/-- What was drawn for a symbol. -/
structure Shares where
  arms : Share
  decisions : Share
  pulls : Share

/-- What was drawn for a symbol is numbered as if nothing had been drawn for the others. -/
def Shares.names (shares : Shares) : Renaming :=
  ⟨shares.arms.renumber, shares.decisions.renumber, shares.pulls.renumber⟩

end ExposureControl
