import ExposureControl.Data.Dialect
import ExposureControl.Drift.Stage

/-!
# Alerts

What the governor publishes: divergence between live and shadow results, moves on the drift
ladder, and the halt that comes with its last rung.  An alert is written as a document whose
field `kind` names its form.
-/

namespace ExposureControl

/-- Which expectations a window of live trades misses. -/
structure Breaches where
  profitFactor : Bool
  winRate : Bool
  drawdown : Bool
deriving DecidableEq, Repr

namespace Breaches

def any (breaches : Breaches) : Bool :=
  breaches.profitFactor || breaches.winRate || breaches.drawdown

end Breaches

/-- A published alert. -/
inductive Alert
  /-- Live and shadow results of a symbol lie too far apart. -/
  | divergence (symbol : String) (live shadow percent : Float)
  /-- The drift monitor moved one rung up. -/
  | escalated (source target : Drift.Stage) (breaches : Breaches)
  /-- The drift monitor moved one rung back. -/
  | recovered (source target : Drift.Stage)
  /-- Trading was halted. -/
  | halted (reason : String)

namespace Alert

def isDivergence : Alert → Bool
  | divergence .. => true
  | _ => false

def toDocument : Alert → Document
  | divergence symbol live shadow percent =>
    .table [("kind", .text "divergence"), ("symbol", .text symbol), ("live_pnl", .float live),
      ("shadow_pnl", .float shadow), ("diff_pct", .float percent)]
  | escalated source target breaches =>
    .table [("kind", .text "drift_escalated"), ("from", .text source.text),
      ("to", .text target.text), ("pf_breach", .bool breaches.profitFactor),
      ("win_rate_breach", .bool breaches.winRate), ("drawdown_breach", .bool breaches.drawdown)]
  | recovered source target =>
    .table [("kind", .text "drift_recovered"), ("from", .text source.text),
      ("to", .text target.text)]
  | halted reason =>
    .table [("kind", .text "kill_switch_activated"), ("reason", .text reason)]

def stageOf? (document : Document) : Option Drift.Stage :=
  (Dialect.tagged.wordOf? document).bind Drift.Stage.ofText?

def fieldNames : String → List String
  | "divergence" => ["symbol", "live_pnl", "shadow_pnl", "diff_pct"]
  | "drift_escalated" => ["from", "to", "pf_breach", "win_rate_breach", "drawdown_breach"]
  | "drift_recovered" => ["from", "to"]
  | "kill_switch_activated" => ["reason"]
  | _ => []

def ofFields? (kind : String) (fields : List (String × Document)) : Option Alert :=
  match kind with
  | "divergence" => do
    let symbol ← Document.required fields "symbol" Document.toText?
    let live ← Document.required fields "live_pnl" Document.toFloat?
    let shadow ← Document.required fields "shadow_pnl" Document.toFloat?
    let percent ← Document.required fields "diff_pct" Document.toFloat?
    return divergence symbol live shadow percent
  | "drift_escalated" => do
    let source ← Document.required fields "from" stageOf?
    let target ← Document.required fields "to" stageOf?
    let profitFactor ← Document.required fields "pf_breach" Document.toBool?
    let winRate ← Document.required fields "win_rate_breach" Document.toBool?
    let drawdown ← Document.required fields "drawdown_breach" Document.toBool?
    return escalated source target { profitFactor, winRate, drawdown }
  | "drift_recovered" => do
    let source ← Document.required fields "from" stageOf?
    let target ← Document.required fields "to" stageOf?
    return recovered source target
  | "kill_switch_activated" => do
    let reason ← Document.required fields "reason" Document.toText?
    return halted reason
  | _ => none

/-- Read an alert.  Fields may come in any order, and unknown ones are ignored; an alert may also
be given as a list of its kind and then its fields' values. -/
def ofDocument? : Document → Option Alert
  | .table fields => do
    let kind ← Document.required fields "kind" Document.toText?
    ofFields? kind fields
  | .list (.text kind :: items) => do
    let fields ← Dialect.tagged.fieldsOf? (fieldNames kind) (.list items)
    ofFields? kind fields
  | _ => none

end Alert

/-- Where alerts go. -/
inductive Notifier
  /-- Keep every alert, oldest first. -/
  | recorder (kept : List Alert)
  /-- Only write alerts to a log. -/
  | log
  /-- Lose every alert. -/
  | broken

namespace Notifier

/-- Publish an alert.  A failure to deliver it is swallowed. -/
def publish (alert : Alert) : Notifier → Notifier
  | recorder kept => recorder (kept ++ [alert])
  | log => log
  | broken => broken

def kept : Notifier → List Alert
  | recorder alerts => alerts
  | log => []
  | broken => []

def clear : Notifier → Notifier
  | recorder _ => recorder []
  | log => log
  | broken => broken

def divergences (notifier : Notifier) : Nat :=
  notifier.kept.countP Alert.isDivergence

end Notifier

end ExposureControl
