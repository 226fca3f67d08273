import ExposureControl.Numeric.Binary64
import ExposureControl.Numeric.Counter
import ExposureControl.Settings.Basic
import ExposureControl.Time.Calendar

/-!
# Canary ledgers

A ledger counts the selections of one symbol on one UTC day, and how many of them went to
candidates.  The budget shuts candidates out once their number or their share is spent.
-/

namespace ExposureControl

/-- Selections of one symbol on one UTC day. -/
structure Ledger where
  day : Day
  total : Nat
  candidates : Nat
deriving DecidableEq, Repr

namespace Ledger

def blank (day : Day) : Ledger := ⟨day, 0, 0⟩

/-- The candidates' share of the day's selections, zero where there are none. -/
def share (ledger : Ledger) : Float :=
  if ledger.total = 0 then 0.0
  else Binary64.ofNat ledger.candidates / Binary64.ofNat ledger.total

/-- A ledger as it stands on a day: a ledger of another day is void. -/
def onDay (day : Day) : Option Ledger → Ledger
  | none => blank day
  | some ledger => if ledger.day = day then ledger else blank day

def charge (candidate : Bool) (ledger : Ledger) : Except Fault Ledger := do
  let total ← Counter.fullWord (ledger.total + 1)
  if candidate then
    return { ledger with total, candidates := ← Counter.fullWord (ledger.candidates + 1) }
  else return { ledger with total }

@[simp]
theorem day_onDay (day : Day) (ledger : Option Ledger) : (onDay day ledger).day = day := by
  unfold onDay
  split
  · rfl
  · split
    · next h => exact h
    · rfl

theorem onDay_of_day_ne {day : Day} {stored : Option Ledger}
    (h : ∀ ledger, stored = some ledger → ledger.day ≠ day) : onDay day stored = blank day := by
  unfold onDay
  split
  · rfl
  · next ledger => exact if_neg (h ledger rfl)

/-- A charge counts one selection, and one candidate if it went to one, where the counters have
room for that. -/
theorem charge_eq_ok_iff (candidate : Bool) (ledger charged : Ledger) :
    ledger.charge candidate = .ok charged ↔
      charged = ⟨ledger.day, ledger.total + 1, ledger.candidates + candidate.toNat⟩ ∧
        ledger.total + 1 < Word64.size ∧
        (candidate = true → ledger.candidates + 1 < Word64.size) := by
  unfold charge
  by_cases total : ledger.total + 1 < Word64.size
  · rw [Counter.fullWord_of_lt total]
    cases candidate with
    | false => simp [total, bind, Except.bind, pure, Except.pure, eq_comm]
    | true =>
      by_cases candidates : ledger.candidates + 1 < Word64.size
      · rw [Counter.fullWord_of_lt candidates]
        simp [total, candidates, bind, Except.bind, pure, Except.pure, eq_comm]
      · rw [Counter.fullWord_of_le (Nat.not_lt.mp candidates)]
        simp [candidates, bind, Except.bind]
  · rw [Counter.fullWord_of_le (Nat.not_lt.mp total)]
    simp [total, bind, Except.bind]

theorem charge_of_full {candidate : Bool} {ledger : Ledger}
    (h : ¬ (ledger.total + 1 < Word64.size ∧
      (candidate = true → ledger.candidates + 1 < Word64.size))) :
    ledger.charge candidate = .error .counterOverflow := by
  unfold charge
  by_cases total : ledger.total + 1 < Word64.size
  · rw [Counter.fullWord_of_lt total]
    cases candidate with
    | false => exact absurd ⟨total, nofun⟩ h
    | true =>
      have full : Word64.size ≤ ledger.candidates + 1 :=
        Nat.not_lt.mp fun room => h ⟨total, fun _ => room⟩
      rw [Counter.fullWord_of_le full]
      rfl
  · rw [Counter.fullWord_of_le (Nat.not_lt.mp total)]
    rfl

end Ledger

/-- Whether the budget lets a candidate be selected: fewer candidates than the daily number, and
a share below the cap, unless the cap is the whole or the day has no selections yet. -/
def Settings.Canary.admits (canary : Settings.Canary) (ledger : Ledger) : Bool :=
  if ledger.candidates ≥ canary.maxTradesPerDay then false
  else !(canary.maxSharePerDay < 1.0 && 0 < ledger.total &&
    canary.maxSharePerDay ≤ ledger.share)

theorem Settings.Canary.candidates_lt_of_admits {canary : Settings.Canary} {ledger : Ledger}
    (h : canary.admits ledger = true) : ledger.candidates < canary.maxTradesPerDay := by
  unfold admits at h
  split at h
  · cases h
  · next below => exact Nat.not_le.mp below

end ExposureControl
