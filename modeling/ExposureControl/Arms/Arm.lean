import ExposureControl.Arms.Context
import ExposureControl.Arms.Outcome
import ExposureControl.Arms.Stats
import ExposureControl.Data.Identifier
import ExposureControl.Time.Calendar
import ExposureControl.Vocabulary

/-!
# Arms and pulls

An arm offers one preset to one contest, the triple of symbol, regime and side within which arms
compete.  A pull records one selection of an arm; its outcome is filled in once.
-/

namespace ExposureControl

/-- Symbol, regime and side: arms compete only within one contest. -/
structure Contest where
  symbol : String
  regime : String
  side : Side
deriving DecidableEq, Repr

namespace Contest

/-- The regime of callers that name none. -/
def unknownRegime : String := "UNKNOWN"

/-- The contest of a caller's words; an empty regime is the unknown one. -/
def of (symbol regime : String) (side : Side) : Contest :=
  ⟨symbol, if regime.isEmpty then unknownRegime else regime, side⟩

/-- Contests are listed by symbol, then regime, then side. -/
def precedes (a b : Contest) : Bool :=
  if a.symbol ≠ b.symbol then a.symbol < b.symbol
  else if a.regime ≠ b.regime then a.regime < b.regime
  else a.side.rank ≤ b.side.rank

end Contest

/-- Whether an arm takes part in selections. -/
inductive ArmStatus
  | eligible
  | blocked
deriving DecidableEq, Repr

namespace ArmStatus

def text : ArmStatus → String
  | eligible => "ELIGIBLE"
  | blocked => "BLOCKED"

def ofText? : String → Option ArmStatus
  | "ELIGIBLE" => some eligible
  | "BLOCKED" => some blocked
  | _ => none

end ArmStatus

/-- What an arm is in its contest. -/
inductive ArmRole
  /-- The preset that is in use. -/
  | baseline
  /-- A preset on trial, under the canary budget. -/
  | candidate
deriving DecidableEq, Repr

namespace ArmRole

def text : ArmRole → String
  | baseline => "BASELINE"
  | candidate => "CANDIDATE"

def ofText? : String → Option ArmRole
  | "BASELINE" => some baseline
  | "CANDIDATE" => some candidate
  | _ => none

def label : ArmRole → String
  | baseline => "baseline"
  | candidate => "candidate"

def ofActive (active : Bool) : ArmRole :=
  if active then baseline else candidate

end ArmRole

/-- A preset that is offered to a contest. -/
structure Offer where
  preset : ObjectId
  role : ArmRole
deriving DecidableEq, Repr

/-- One selectable preset of one contest. -/
structure Arm where
  id : ObjectId
  contest : Contest
  preset : ObjectId
  status : ArmStatus
  role : ArmRole
  stats : Stats
  createdAt : Instant
  updatedAt : Instant

namespace Arm

/-- A new arm is eligible and has no statistics. -/
def create (id : ObjectId) (contest : Contest) (offer : Offer) (now : Instant) : Arm where
  id
  contest
  preset := offer.preset
  status := .eligible
  role := offer.role
  stats := .empty
  createdAt := now
  updatedAt := now

def eligible (arm : Arm) : Bool := arm.status = .eligible

end Arm

/-- The record of one selection. -/
structure Pull where
  /-- Pulls are numbered from 1 in the order in which they are logged. -/
  serial : Nat
  arm : ObjectId
  loggedAt : Instant
  decision : DecisionId
  context : Context
  /-- Absent until the decision is resolved, and then never changed.  Its four numbers come and stay
  together: a pull is logged with none of them, resolving it sets all of them, and there is no
  other way to put a pull on record. -/
  outcome : Option Outcome
  contest : Contest
  role : ArmRole

namespace Pull

def resolved (pull : Pull) : Bool := pull.outcome.isSome

end Pull

/-- The result of a selection. -/
structure Selection where
  arm : ObjectId
  preset : ObjectId
  role : ArmRole
  decision : DecisionId
  context : Context

end ExposureControl
