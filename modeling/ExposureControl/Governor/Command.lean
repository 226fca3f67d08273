import ExposureControl.Governor.Basic

/-!
# Commands and runs

A command is one call that may change the governor, with its arguments.  A step carries a command
out; a run carries out a sequence of commands and ends early only at a fault.  A refused command
is an ordinary step whose answer is the refusal.
-/

namespace ExposureControl

/-- A call that may change the governor. -/
inductive Command
  | advance (span : Span)
  | setClock (time : Instant)
  | ensureArms (contest : Contest) (offers : List Offer)
  /-- Put an arm on record as it is given. -/
  | restoreArm (arm : Arm)
  | select (contest : Contest) (context : Context)
  | recordOutcome (decision : DecisionId) (outcome : Outcome)
  /-- Shape a trade result into an outcome and record it. -/
  | recordTrade (decision : DecisionId) (profit slippage fees : Option Float)
  | setStatus (arm : ObjectId) (status : ArmStatus)
  | setPresetStatus (preset : ObjectId) (status : ArmStatus)
  | resetArms (contest : Contest)
  /-- Log a pull without a selection. -/
  | logPull (arm : ObjectId) (decision : DecisionId) (context : Context) (halfLife : Span)
      (time : Instant)
  /-- Resolve a decision at a time of the caller's choice. -/
  | applyReward (decision : DecisionId) (outcome : Outcome) (halfLife : Span) (time : Instant)
  /-- Charge a symbol's ledger without a selection. -/
  | chargeLedger (symbol : String) (candidate : Bool) (time : Instant)
  /-- Overwrite a symbol's ledger. -/
  | seedLedger (symbol : String) (ledger : Ledger)
  | prunePulls (cutoff : Instant)
  | submit (submission : Costs.Submission)
  | fill (order : String) (price : Float) (spread : Option Float) (filledAt : Option Instant)
  | registerShadow (ticket : Shadow.Ticket)
  | priceTick (symbol : String) (price : Float)
  /-- Put a shadow position on record as it is given. -/
  | restorePosition (position : Shadow.Position)
  | reportLive (symbol : String) (result : Float)
  | reportShadow (symbol : String) (result : Float)
  /-- Book a live result with the shadow engine alone. -/
  | bookLive (symbol : String) (result : Float)
  /-- Hand a trade to the drift monitor alone. -/
  | recordTradeResult (track : Drift.Track) (result : Float)
  /-- Return to the first rung with empty windows. -/
  | resetMonitor
  | setKillSwitch (active : Bool)
  | setMode (mode : TradingMode)
  /-- Forget the alerts that the notifier kept. -/
  | clearAlerts
  /-- Drop what is older than its retention period, as seen from a time. -/
  | pruneExpired (now : Instant)

/-- The answer to a command. -/
inductive Reply
  | done
  | count (n : Nat)
  | arm (arm : Arm)
  | arms (arms : List Arm)
  | selection (selection : Selection)
  | pull (pull : Option Pull)
  | sample (sample : Option Costs.Sample)
  | position (position : Option Shadow.Position)
  | positions (positions : List Shadow.Position)
  | removals (removals : Removals)

namespace Governor

/-- A step that cannot be refused. -/
def answering (governor : Governor) (reply : Reply) :
    Except Fault (Governor × Except Refusal Reply) :=
  .ok (governor, .ok reply)

/-- A step that may be refused. -/
def attempting {α : Type} (reply : α → Reply) (result : Governor × Except Refusal α) :
    Except Fault (Governor × Except Refusal Reply) :=
  .ok (result.1, result.2.map reply)

def step (governor : Governor) : Command → Except Fault (Governor × Except Refusal Reply)
  | .advance span => do answering (← governor.advance span) .done
  | .setClock time => answering { governor with clock := time } .done
  | .ensureArms contest offers =>
    let (governor, arms) := governor.ensureArms contest offers
    answering governor (.arms arms)
  | .restoreArm arm =>
    answering (governor.withRegistry fun registry => (registry.restoreArm arm, ())).1 .done
  | .select contest context => do
    attempting .selection (← governor.select contest context)
  | .recordOutcome decision outcome => do
    attempting .pull (← governor.recordOutcome decision outcome)
  | .recordTrade decision profit slippage fees => do
    attempting .pull (← governor.recordTrade decision profit slippage fees)
  | .setStatus arm status =>
    attempting .arm (governor.withRegistry (Registry.setStatus arm status governor.clock))
  | .setPresetStatus preset status =>
    attempting .count
      (governor.withRegistry (Registry.setPresetStatus preset status governor.clock))
  | .resetArms contest =>
    let (governor, n) := governor.withRegistry (Registry.resetStats contest governor.clock)
    answering governor (.count n)
  | .logPull arm decision context halfLife time => do
    attempting (fun pull => .pull (some pull))
      (← governor.tryRegistry (Registry.logPull arm context decision halfLife time))
  | .applyReward decision outcome halfLife time => do
    attempting (fun pull => .pull (some pull))
      (← governor.tryRegistry (Registry.applyReward decision outcome halfLife time))
  | .chargeLedger symbol candidate time => do
    let (governor, _) ← governor.tryRegistry fun registry =>
      (registry.chargeLedger symbol candidate time).map fun registry => (registry, ())
    answering governor .done
  | .seedLedger symbol ledger =>
    answering (governor.withRegistry fun registry => (registry.seedLedger symbol ledger, ())).1
      .done
  | .prunePulls cutoff =>
    let (governor, n) := governor.withRegistry (Registry.prunePulls cutoff)
    answering governor (.count n)
  | .submit submission => answering (governor.submit submission) .done
  | .fill order price spread filledAt => do
    let (governor, sample) ← governor.fill order price spread filledAt
    answering governor (.sample sample)
  | .registerShadow ticket =>
    let (governor, position) := governor.registerShadow ticket
    answering governor (.position position)
  | .priceTick symbol price => do
    let (governor, closed) ← governor.priceTick symbol price
    answering governor (.positions closed)
  | .restorePosition position => answering (governor.restorePosition position) .done
  | .reportLive symbol result => answering (governor.reportLive symbol result) .done
  | .reportShadow symbol result => answering (governor.reportShadow symbol result) .done
  | .bookLive symbol result => answering (governor.bookLive symbol result) .done
  | .recordTradeResult track result =>
    answering (governor.recordTradeResult track result) .done
  | .resetMonitor => answering governor.resetMonitor .done
  | .setKillSwitch active => answering (governor.setKillSwitch active) .done
  | .setMode mode => answering (governor.setMode mode) .done
  | .clearAlerts => answering { governor with notifier := governor.notifier.clear } .done
  | .pruneExpired now => do
    let (governor, removals) ← governor.pruneExpired now
    answering governor (.removals removals)

def run (governor : Governor) :
    List Command → Except Fault (Governor × List (Except Refusal Reply))
  | [] => .ok (governor, [])
  | command :: rest => do
    let (governor, answer) ← governor.step command
    let (governor, answers) ← governor.run rest
    return (governor, answer :: answers)

end Governor

end ExposureControl
