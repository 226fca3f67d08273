import ExposureControl.Arms.Ledger
import ExposureControl.Refusal

/-!
# The registry of arms and pulls

The registry keeps every arm, the arms of each contest in order of creation, each symbol's pulls
in the order in which they were logged, the symbol of every decision on record, and one canary
ledger per symbol.  Operations that can be refused return the registry as they leave it in either
case; a counter without room is a fault.
-/

namespace ExposureControl

/-- Arms, pulls and canary ledgers. -/
structure Registry where
  arms : Table ObjectId Arm
  /-- The arms of each contest, in order of creation. -/
  index : Table Contest (List ObjectId)
  /-- The pulls of each symbol, oldest first. -/
  histories : Table String (List Pull)
  /-- The symbol in whose history a decision's pull is found. -/
  decisions : Table DecisionId String
  ledgers : Table String Ledger
  /-- Arms that the registry has created itself. -/
  armsDrawn : Nat
  /-- Pulls logged so far, whether or not they were pruned. -/
  pullsLogged : Nat

namespace Registry

def empty : Registry := ⟨.empty, .empty, .empty, .empty, .empty, 0, 0⟩

/-! ## Arms -/

def idsOf (registry : Registry) (contest : Contest) : List ObjectId :=
  (registry.index.find? contest).getD []

def armsOf (registry : Registry) (contest : Contest) : List Arm :=
  (registry.idsOf contest).filterMap registry.arms.find?

/-- Every contest's arms, by contest and then in order of creation. -/
def allArms (registry : Registry) : List Arm :=
  (registry.index.keys.mergeSort Contest.precedes).flatMap registry.armsOf

def changeArm (id : ObjectId) (f : Arm → Arm) (registry : Registry) : Registry :=
  { registry with arms := registry.arms.modify id f }

def createArm (contest : Contest) (now : Instant) (offer : Offer) (registry : Registry) :
    Registry :=
  let id : ObjectId := .drawn .arms (registry.armsDrawn + 1)
  { registry with
    arms := registry.arms.insert id (.create id contest offer now)
    index := registry.index.update contest [] (· ++ [id])
    armsDrawn := registry.armsDrawn + 1 }

def armOffering? (registry : Registry) (contest : Contest) (preset : ObjectId) : Option Arm :=
  (registry.armsOf contest).find? fun arm => arm.preset = preset

/-- Make sure that a contest has an arm for an offer, in the offered role. -/
def settleOffer (contest : Contest) (now : Instant) (registry : Registry) (offer : Offer) :
    Registry :=
  match registry.armOffering? contest offer.preset with
  | none => registry.createArm contest now offer
  | some arm =>
    if arm.role = offer.role then registry
    else registry.changeArm arm.id fun arm => { arm with role := offer.role, updatedAt := now }

/-- Make sure that a contest has one arm for each offer, and give all its arms. -/
def ensureArms (contest : Contest) (offers : List Offer) (now : Instant) (registry : Registry) :
    Registry × List Arm :=
  let opened := { registry with index := registry.index.update contest [] fun ids => ids }
  let settled := offers.foldl (settleOffer contest now) opened
  (settled, settled.armsOf contest)

/-- Put an arm on record as it is given, replacing one of the same identifier, and list it for its
contest if it is not listed there yet. -/
def restoreArm (arm : Arm) (registry : Registry) : Registry :=
  { registry with
    arms := registry.arms.insert arm.id arm
    index := registry.index.update arm.contest [] fun ids =>
      if ids.contains arm.id then ids else ids ++ [arm.id] }

def setStatus (id : ObjectId) (status : ArmStatus) (now : Instant) (registry : Registry) :
    Registry × Except Refusal Arm :=
  match registry.arms.find? id with
  | none => (registry, .error (.unknownArm id))
  | some arm =>
    let arm := { arm with status, updatedAt := now }
    ({ registry with arms := registry.arms.insert id arm }, .ok arm)

def setPresetStatus (preset : ObjectId) (status : ArmStatus) (now : Instant) (registry : Registry) :
    Registry × Except Refusal Nat :=
  let touched := (registry.arms.values.filter fun arm => arm.preset = preset).length
  if touched = 0 then (registry, .error (.unknownPreset preset))
  else
    let arms := registry.arms.mapValues fun _ arm =>
      if arm.preset = preset then { arm with status, updatedAt := now } else arm
    ({ registry with arms }, .ok touched)

/-- Clear the statistics of every arm of a contest, and count the arms listed there. -/
def resetStats (contest : Contest) (now : Instant) (registry : Registry) : Registry × Nat :=
  let ids := registry.idsOf contest
  let clear := fun (registry : Registry) id =>
    registry.changeArm id fun arm => { arm with stats := .empty, updatedAt := now }
  (ids.foldl clear registry, ids.length)

/-! ## Pulls -/

def historyOf (registry : Registry) (symbol : String) : List Pull :=
  (registry.histories.find? symbol).getD []

def logPull (id : ObjectId) (context : Context) (decision : DecisionId) (halfLife : Span)
    (now : Instant) (registry : Registry) : Except Fault (Registry × Except Refusal Pull) :=
  match registry.arms.find? id with
  | none => .ok (registry, .error (.unknownArm id))
  | some arm => do
    let stats ← arm.stats.registerPull halfLife now
    let pull : Pull :=
      { serial := registry.pullsLogged + 1, arm := id, loggedAt := now, decision, context,
        outcome := none, contest := arm.contest, role := arm.role }
    let symbol := arm.contest.symbol
    return ({ registry with
        arms := registry.arms.insert id { arm with stats, updatedAt := now }
        histories := registry.histories.update symbol [] (· ++ [pull])
        decisions := registry.decisions.insert decision symbol
        pullsLogged := registry.pullsLogged + 1 },
      .ok pull)

def locate? (registry : Registry) (decision : DecisionId) : Option (String × Pull) := do
  let symbol ← registry.decisions.find? decision
  let pull ← (registry.historyOf symbol).find? fun pull => pull.decision = decision
  return (symbol, pull)

def findPull? (registry : Registry) (decision : DecisionId) : Option Pull :=
  (registry.locate? decision).map Prod.snd

def resolveIn (decision : DecisionId) (resolved : Pull) : List Pull → List Pull
  | [] => []
  | pull :: rest =>
    if pull.decision = decision then resolved :: rest
    else pull :: resolveIn decision resolved rest

/-- Resolve a decision with its outcome and feed the reward to its arm.  A decision that is already
resolved keeps its outcome. -/
def applyReward (decision : DecisionId) (outcome : Outcome) (halfLife : Span) (now : Instant)
    (registry : Registry) : Except Fault (Registry × Except Refusal Pull) :=
  match registry.locate? decision with
  | none => .ok (registry, .error (.unknownDecision decision))
  | some (symbol, pull) =>
    if pull.resolved then .ok (registry, .ok pull)
    else
      let resolved := { pull with outcome := some outcome }
      let registry := { registry with
        histories := registry.histories.modify symbol (resolveIn decision resolved) }
      match registry.arms.find? pull.arm with
      | none => .ok (registry, .error (.unknownArm pull.arm))
      | some arm => do
        let stats ← arm.stats.recordReward outcome.reward halfLife now
        return ({ registry with
            arms := registry.arms.insert pull.arm { arm with stats, updatedAt := now } },
          .ok resolved)

/-- The latest pulls of a contest, newest first: at most `limit` of them, but at least one if
there is any. -/
def recentPulls (registry : Registry) (contest : Contest) (limit : Nat) : List Pull :=
  let ofContest := (registry.historyOf contest.symbol).reverse.filter fun pull =>
    pull.contest.regime = contest.regime ∧ pull.contest.side = contest.side
  ofContest.take (max limit 1)

/-- Drop the pulls logged before a cutoff, together with their decisions, and count them. -/
def prunePulls (cutoff : Instant) (registry : Registry) : Registry × Nat :=
  let expired := fun (pull : Pull) => decide (pull.loggedAt < cutoff)
  let removed := (registry.histories.values.flatten.filter expired).map Pull.decision
  ({ registry with
      histories := registry.histories.mapValues fun _ pulls =>
        pulls.filter fun pull => !expired pull
      decisions := registry.decisions.filter fun decision _ => !removed.contains decision },
    removed.length)

/-! ## Canary ledgers -/

def ledgerOn (registry : Registry) (symbol : String) (now : Instant) : Ledger :=
  Ledger.onDay now.day (registry.ledgers.find? symbol)

def chargeLedger (symbol : String) (candidate : Bool) (now : Instant) (registry : Registry) :
    Except Fault Registry := do
  let ledger ← (registry.ledgerOn symbol now).charge candidate
  return { registry with ledgers := registry.ledgers.insert symbol ledger }

def seedLedger (symbol : String) (ledger : Ledger) (registry : Registry) : Registry :=
  { registry with ledgers := registry.ledgers.insert symbol ledger }

end Registry

end ExposureControl
