import ExposureControl.Report.Results
import ExposureControl.Simulation.Session

/-!
# Session reports

What a finished session prints: its counts, the drift status, and for every symbol the state of
selection, shadow book and costs.  Where a symbol occurs twice in the plan, its last occurrence is
reported.
-/

namespace ExposureControl.Simulation

structure SymbolReport where
  overview : Overview
  shadow : Shadow.Status
  costs : Costs.Summary
  /-- Selections by the label of the preset. -/
  pulls : Table String Nat

structure Report where
  seed : Nat
  steps : Nat
  decisions : Nat
  skipped : Nat
  drift : Drift.Status
  /-- Alerts published during the session. -/
  alerts : Nat
  removed : Removals
  symbols : Table String SymbolReport

namespace Session

def reportOn (session : Session) (lane : Lane) : Except Failure SymbolReport := do
  let overview ← guarded (session.governor.overview lane.symbol)
  return {
    overview
    shadow := session.governor.shadow.status lane.symbol
    costs := session.governor.costs.history.summary (some lane.symbol) none none
    pulls := .ofList (lane.presets.map fun preset =>
      (preset.label, (session.pulls.find? preset.offer.preset).getD 0)) }

def report (plan : Plan) (session : Session) : Except Failure Report := do
  let symbols ← session.lanes.mapM fun lane => do
    return (lane.symbol, ← session.reportOn lane)
  return {
    seed := plan.seed
    steps := plan.steps
    decisions := session.decisions
    skipped := session.skipped
    drift := session.governor.driftStatus
    alerts := session.governor.notifier.kept.length
    removed := session.removed
    symbols := .ofList symbols }

end Session

def SymbolReport.toDocument (report : SymbolReport) : Document :=
  .table [("bandit", report.overview.toDocument), ("shadow", report.shadow.toDocument),
    ("tca", report.costs.toDocument),
    ("preset_pulls", .table (report.pulls.entries.map fun (label, n) => (label, .nat n)))]

def Report.toDocument (report : Report) : Document :=
  .table [("seed", .nat report.seed), ("steps", .nat report.steps),
    ("decisions", .nat report.decisions), ("skipped", .nat report.skipped),
    ("drift", report.drift.toDocument), ("events", .nat report.alerts),
    ("pruned", report.removed.toDocument),
    ("symbols",
      .table (report.symbols.entries.map fun (symbol, part) => (symbol, part.toDocument)))]

/-- Settings with the plan's seed where they have none. -/
def seeded (plan : Plan) (settings : Settings) : Settings :=
  { settings with
    selection :=
      { settings.selection with seed := some (settings.selection.seed.getD plan.seed) } }

/-- Simulate a plan with valid settings and report on it. -/
def simulate (plan : Plan) (settings : Settings) : Except Failure Report := do
  let governor ← Session.guarded
    (Governor.create (seeded plan settings) 0 (.recorder []) startOfSession)
  let session ← (Session.start plan governor (ChaCha.ofSeed plan.seed.toUInt64)).run plan
  session.report plan

end ExposureControl.Simulation
