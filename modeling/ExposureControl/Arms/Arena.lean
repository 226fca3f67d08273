import ExposureControl.Arms.Choice
import ExposureControl.Arms.Registry
import ExposureControl.Random.ChaCha

/-!
# The arena

The arena joins the registry with one random generator per symbol.  A selection loads the arms of
its contest, holds candidates back if the symbol's budget is spent, lets the policy choose, and
then logs the pull and charges the ledger.

The clock is taken to stand still during a selection: the stamp of the pull, the day whose budget
is checked and the day that is charged are all read from one instant.  A clock that passes midnight
in between, so that a selection is admitted on one day and charged to the next, is not modelled.
-/

namespace ExposureControl

/-- The generator that each symbol has at the start of its stream. -/
structure Seeding where
  start : String → Generator

namespace Seeding

/-- A hash of a symbol's bytes by which symbols with one seed get different generators. -/
def salt (symbol : String) : UInt64 :=
  symbol.toUTF8.toList.foldl (fun hash byte => (hash ^^^ byte.toUInt64) * 0x100000001b3)
    0xcbf29ce484222325

/-- Every symbol's ChaCha8 stream under one seed. -/
def ofSeed (seed : UInt64) : Seeding := ⟨fun symbol => ChaCha.ofSeed (seed ^^^ salt symbol)⟩

instance (n : Nat) : OfNat Seeding n := ⟨ofSeed (.ofNat n)⟩

/-- The seeding by the seed of settings.  Without a seed it is left to entropy, which may give each
symbol any generator, whatever the others have. -/
def ofSettings (settings : Settings.Selection) (entropy : Seeding) : Seeding :=
  match settings.seed with
  | some seed => ofSeed seed.toUInt64
  | none => entropy

end Seeding

/-- The state of selection. -/
structure Arena where
  registry : Registry
  /-- The generators of the symbols that have made a choice. -/
  generators : Table String Generator
  /-- Decisions drawn so far. -/
  decisionsDrawn : Nat

namespace Arena

def empty : Arena := ⟨.empty, .empty, 0⟩

def withRegistry {α : Type} (f : Registry → Registry × α) (arena : Arena) : Arena × α :=
  let (registry, answer) := f arena.registry
  ({ arena with registry }, answer)

/-- Make a change to the registry that may be a fault, and keep what it answers. -/
def tryRegistry {α : Type} (f : Registry → Except Fault (Registry × α)) (arena : Arena) :
    Except Fault (Arena × α) := do
  let (registry, answer) ← f arena.registry
  return ({ arena with registry }, answer)

def candidatesAllowed (settings : Settings.Selection) (symbol : String) (now : Instant)
    (arena : Arena) : Bool :=
  settings.canary.admits (arena.registry.ledgerOn symbol now)

/-- The arms that may be chosen: the eligible arms of the contest, less the candidates among them
if the budget shuts those out. -/
def offered (settings : Settings.Selection) (contest : Contest) (now : Instant) (arena : Arena) :
    List Arm :=
  let eligible := (arena.registry.armsOf contest).filter Arm.eligible
  if eligible.any (fun arm => arm.role = .candidate) &&
      !arena.candidatesAllowed settings contest.symbol now then
    eligible.filter fun arm => arm.role = .baseline
  else eligible

def chooseFrom (policy : Policy) (seeding : Seeding) (symbol : String) (arms : List Arm)
    (arena : Arena) : Arena × Option Arm :=
  let generator := (arena.generators.find? symbol).getD (seeding.start symbol)
  let (place, generator) := policy.choose arms generator
  ({ arena with generators := arena.generators.insert symbol generator },
    place.bind fun place => arms[place]?)

/-- Log a selection of an arm under a fresh decision, and charge the symbol's ledger. -/
def commit (settings : Settings.Selection) (now : Instant) (symbol : String) (arm : Arm)
    (context : Context) (arena : Arena) : Except Fault (Arena × Except Refusal Selection) := do
  let decision : DecisionId := .drawn .decisions (arena.decisionsDrawn + 1)
  let arena := { arena with decisionsDrawn := arena.decisionsDrawn + 1 }
  let (registry, logged) ←
    arena.registry.logPull arm.id context decision settings.decay.halfLife now
  match logged with
  | .error refusal => return ({ arena with registry }, .error refusal)
  | .ok _ =>
    let registry ← registry.chargeLedger symbol (arm.role = .candidate) now
    return ({ arena with registry },
      .ok { arm := arm.id, preset := arm.preset, role := arm.role, decision, context })

def select (settings : Settings.Selection) (seeding : Seeding) (now : Instant)
    (contest : Contest) (context : Context) (arena : Arena) :
    Except Fault (Arena × Except Refusal Selection) :=
  if !settings.enabled then .ok (arena, .error .selectionDisabled)
  else
    let arms := arena.offered settings contest now
    if arms.isEmpty then .ok (arena, .error (.noEligibleArm contest))
    else
      let (chosen, arm?) := arena.chooseFrom settings.policy seeding contest.symbol arms
      match arm? with
      | none => .ok (chosen, .error (.noEligibleArm contest))
      | some arm => chosen.commit settings now contest.symbol arm context

/-- Record the outcome of a decision.  An outcome without a finite reward is dropped. -/
def recordOutcome (settings : Settings.Selection) (now : Instant) (decision : DecisionId)
    (outcome : Outcome) (arena : Arena) :
    Except Fault (Arena × Except Refusal (Option Pull)) :=
  match outcome.usable? with
  | none => .ok (arena, .ok none)
  | some outcome => do
    let (arena, result) ←
      arena.tryRegistry (Registry.applyReward decision outcome settings.decay.halfLife now)
    return (arena, result.map some)

end Arena

/-- The operator's view of one symbol. -/
structure Overview where
  enabled : Bool
  policy : Policy
  symbol : String
  arms : Nat
  eligible : Nat
  blocked : Nat
  pulls : Nat
  observations : Nat
  ledger : Ledger
  generatedAt : Instant

def Arena.overview (settings : Settings.Selection) (symbol : String) (now : Instant)
    (arena : Arena) : Except Fault Overview := do
  let arms := arena.registry.allArms.filter fun arm => arm.contest.symbol = symbol
  let eligible := arms.countP Arm.eligible
  let pulls ← Counter.fullWord ((arms.map fun arm => arm.stats.pulls).foldr (· + ·) 0)
  let observations ←
    Counter.fullWord ((arms.map fun arm => arm.stats.observations).foldr (· + ·) 0)
  return {
    enabled := settings.enabled
    policy := settings.policy
    symbol
    arms := arms.length
    eligible
    blocked := arms.length - eligible
    pulls
    observations
    ledger := arena.registry.ledgerOn symbol now
    generatedAt := now }

end ExposureControl
