import ExposureControl.Proofs.Soundness

/-!
# Signals to the drift monitor

The drift monitor and the gate that it sets form a machine of their own, the watch.  A command of
the governor acts on the watch by the signals that it sends there, one after the other, and what
is published on the way is the watch's output.  So a history of the governor is one run of the
watch, and statements about stages, the kill switch and alerts are statements about such runs.
-/

namespace ExposureControl

namespace Drift

/-- The drift monitor together with the gate. -/
structure Watch where
  monitor : Monitor
  gate : Gate

/-- What reaches the watch in the course of a command. -/
inductive Signal
  /-- An alert that others raise, and that is published between two trades. -/
  | notice (alert : Alert)
  /-- A trade to record. -/
  | trade (now : Instant) (track : Track) (result : Float)
  /-- An operator's return to the first rung. -/
  | reset
  /-- The kill switch, set by hand. -/
  | setKillSwitch (active : Bool)
  /-- The trading mode, set by hand. -/
  | setMode (mode : TradingMode)
  /-- The trades before a cutoff are dropped. -/
  | prune (cutoff : Instant)

/-- One line of what the watch does in public: an alert, or the mark of an operator's reset, which
publishes nothing. -/
inductive Entry
  | reset
  | alert (alert : Alert)

def Entry.alert? : Entry → Option Alert
  | .reset => none
  | .alert raised => some raised

namespace Watch

variable {settings : Settings.Drift}

def receive (settings : Settings.Drift) (watch : Watch) : Signal → Watch × List Entry
  | .notice alert => (watch, [.alert alert])
  | .trade now track result =>
    let (monitor, gate, alerts) := watch.monitor.record settings now track result watch.gate
    (⟨monitor, gate⟩, alerts.map .alert)
  | .reset => (⟨watch.monitor.reset, watch.gate.enter .normal⟩, [.reset])
  | .setKillSwitch active => ({ watch with gate := { watch.gate with killSwitch := active } }, [])
  | .setMode mode => ({ watch with gate := { watch.gate with mode } }, [])
  | .prune cutoff => ({ watch with monitor := (watch.monitor.pruneBefore cutoff).1 }, [])

/-- Act on signals one after the other, and write down what is done in public. -/
def run (settings : Settings.Drift) (watch : Watch) : List Signal → Watch × List Entry
  | [] => (watch, [])
  | signal :: rest =>
    let (next, entries) := watch.receive settings signal
    let (last, later) := next.run settings rest
    (last, entries ++ later)

@[simp]
theorem run_nil (watch : Watch) : watch.run settings [] = (watch, []) := rfl

@[simp]
theorem run_singleton (watch : Watch) (signal : Signal) :
    watch.run settings [signal] = watch.receive settings signal := by
  simp [run]

/-- A run goes on from where its first part ended. -/
theorem run_append (watch : Watch) (first second : List Signal) :
    watch.run settings (first ++ second) =
      (((watch.run settings first).1.run settings second).1,
        (watch.run settings first).2 ++ ((watch.run settings first).1.run settings second).2) := by
  induction first generalizing watch with
  | nil => simp
  | cons signal rest ih => simp only [List.cons_append, run, ih, List.append_assoc]

end Watch

/-- The alerts among what was written down. -/
def alertsOf (entries : List Entry) : List Alert := entries.filterMap Entry.alert?

@[simp]
theorem alertsOf_nil : alertsOf [] = [] := rfl

@[simp]
theorem alertsOf_append (first second : List Entry) :
    alertsOf (first ++ second) = alertsOf first ++ alertsOf second :=
  List.filterMap_append

@[simp]
theorem alertsOf_map_alert (alerts : List Alert) : alertsOf (alerts.map .alert) = alerts := by
  rw [alertsOf, List.filterMap_map]
  exact List.filterMap_some

end Drift

open Drift (Watch Signal Entry)

/-! ## The alerts of the shadow engine -/

namespace Shadow

/-- Whether whatever alert a booked fill raised is one of divergence. -/
def BookedFill.Diverging (fill : BookedFill) : Prop :=
  ∀ alert, fill.alert = some alert → alert.isDivergence = true

namespace Engine

theorem isDivergence_checkDivergence {settings : Settings.Shadow} {symbol : String}
    {engine : Engine} {alert : Alert}
    (hraised : (engine.checkDivergence settings symbol).2 = some alert) :
    alert.isDivergence = true := by
  dsimp only [checkDivergence] at hraised
  split at hraised
  · obtain rfl := Option.some.inj hraised
    rfl
  · cases hraised

theorem isDivergence_bookLive {settings : Settings.Shadow} {symbol : String} {result : Float}
    {engine : Engine} {alert : Alert}
    (hraised : (engine.bookLive settings symbol result).2 = some alert) :
    alert.isDivergence = true := by
  unfold bookLive at hraised
  split at hraised
  · exact isDivergence_checkDivergence hraised
  · cases hraised

theorem diverging_bookShadow {settings : Settings.Shadow} {symbol : String} {result : Float}
    {engine : Engine} {fill : BookedFill}
    (hbooked : (engine.bookShadow settings symbol result).2 = some fill) : fill.Diverging := by
  unfold bookShadow at hbooked
  split at hbooked
  · obtain rfl := Option.some.inj hbooked
    exact fun alert => isDivergence_checkDivergence
  · cases hbooked

theorem diverging_bookCloses {settings : Settings.Shadow} {symbol : String}
    (positions : List Position) (engine : Engine) :
    ∀ fill ∈ (bookCloses settings symbol positions engine).2, fill.Diverging := by
  induction positions generalizing engine with
  | nil => exact fun fill => nofun
  | cons position rest ih =>
    intro fill hfill
    obtain hfirst | hrest := List.mem_append.mp hfill
    · exact diverging_bookShadow (Option.mem_toList.mp hfirst)
    · exact ih _ fill hrest

theorem diverging_priceTick {settings : Settings.Shadow} {symbol : String} {price : Float}
    {now : Instant} {engine after : Engine} {closed : List Position} {fills : List BookedFill}
    (htick : engine.priceTick settings symbol price now = .ok (after, closed, fills)) :
    ∀ fill ∈ fills, fill.Diverging := by
  unfold priceTick at htick
  split at htick
  · simp only [Fault.bind_eq_ok_iff, Fault.pure_eq_ok_iff, Prod.mk.injEq, Prod.exists] at htick
    obtain ⟨book, positions, -, -, -, rfl⟩ := htick
    exact diverging_bookCloses _ _
  · simp only [Except.ok.injEq, Prod.mk.injEq] at htick
    obtain ⟨-, -, rfl⟩ := htick
    exact fun fill => nofun

end Engine

end Shadow

/-! ## The signals of a command -/

namespace Governor

def watch (governor : Governor) : Watch := ⟨governor.monitor, governor.gate⟩

/-- A booked shadow fill signals the alert that it raised, and then its trade. -/
def fillSignals (now : Instant) (fill : Shadow.BookedFill) : List Signal :=
  fill.alert.toList.map .notice ++ [.trade now .shadow fill.result]

/-- The signals that a command sends to the watch.  Commands that are not listed send none. -/
def signals (governor : Governor) : Command → List Signal
  | .reportLive symbol result =>
    (governor.shadow.bookLive governor.settings.shadow symbol result).2.toList.map .notice ++
      [.trade governor.clock .live result]
  | .bookLive symbol result =>
    (governor.shadow.bookLive governor.settings.shadow symbol result).2.toList.map .notice
  | .reportShadow symbol result =>
    (governor.shadow.bookShadow governor.settings.shadow symbol result).2.toList.flatMap
      (fillSignals governor.clock)
  | .priceTick symbol price =>
    match governor.shadow.priceTick governor.settings.shadow symbol price governor.clock with
    | .ok (_, _, fills) => fills.flatMap (fillSignals governor.clock)
    | .error _ => []
  | .recordTradeResult track result => [.trade governor.clock track result]
  | .resetMonitor => [.reset]
  | .setKillSwitch active => [.setKillSwitch active]
  | .setMode mode => [.setMode mode]
  | .pruneExpired now =>
    (Span.days governor.settings.drift.retentionDays >>= now.before).toOption.toList.map .prune
  | _ => []

/-- Which signals a command can send.  Nothing but divergence is given notice of, and what is set
by hand is set by a command of its own. -/
inductive Sends : Command → Signal → Prop
  | notice {command : Command} {alert : Alert} (hdivergence : alert.isDivergence = true) :
      Sends command (.notice alert)
  | trade {command : Command} (now : Instant) (track : Drift.Track) (result : Float) :
      Sends command (.trade now track result)
  | prune {command : Command} (cutoff : Instant) : Sends command (.prune cutoff)
  | reset : Sends .resetMonitor .reset
  | setKillSwitch (active : Bool) : Sends (.setKillSwitch active) (.setKillSwitch active)
  | setMode (mode : TradingMode) : Sends (.setMode mode) (.setMode mode)

theorem Sends.isDivergence {command : Command} {alert : Alert}
    (hsends : Sends command (.notice alert)) : alert.isDivergence = true := by
  cases hsends
  assumption

theorem sends_of_mem_fillSignals {now : Instant} {fills : List Shadow.BookedFill}
    (hfills : ∀ fill ∈ fills, fill.Diverging) {signal : Signal}
    (hsignal : signal ∈ fills.flatMap (fillSignals now)) (command : Command) :
    Sends command signal := by
  obtain ⟨fill, hfill, hsignal⟩ := List.mem_flatMap.mp hsignal
  obtain hnotice | htrade := List.mem_append.mp hsignal
  · obtain ⟨alert, hraised, rfl⟩ := List.mem_map.mp hnotice
    exact .notice (hfills fill hfill alert (Option.mem_toList.mp hraised))
  · obtain rfl := List.mem_singleton.mp htrade
    exact .trade now .shadow fill.result

theorem sends_of_mem_signals {governor : Governor} {command : Command} {signal : Signal}
    (hsignal : signal ∈ governor.signals command) : Sends command signal := by
  cases command with
  | bookLive =>
    obtain ⟨alert, hraised, rfl⟩ := List.mem_map.mp hsignal
    exact .notice (Shadow.Engine.isDivergence_bookLive (Option.mem_toList.mp hraised))
  | reportLive symbol result =>
    obtain hnotice | htrade := List.mem_append.mp hsignal
    · obtain ⟨alert, hraised, rfl⟩ := List.mem_map.mp hnotice
      exact .notice (Shadow.Engine.isDivergence_bookLive (Option.mem_toList.mp hraised))
    · obtain rfl := List.mem_singleton.mp htrade
      exact .trade governor.clock .live result
  | reportShadow =>
    refine sends_of_mem_fillSignals (fun fill hfill => ?_) hsignal _
    exact Shadow.Engine.diverging_bookShadow (Option.mem_toList.mp hfill)
  | priceTick =>
    dsimp only [signals] at hsignal
    split at hsignal
    · next htick =>
      exact sends_of_mem_fillSignals (Shadow.Engine.diverging_priceTick htick) hsignal _
    · cases hsignal
  | recordTradeResult track result =>
    obtain rfl := List.mem_singleton.mp hsignal
    exact .trade governor.clock track result
  | resetMonitor =>
    obtain rfl := List.mem_singleton.mp hsignal
    exact .reset
  | setKillSwitch active =>
    obtain rfl := List.mem_singleton.mp hsignal
    exact .setKillSwitch active
  | setMode mode =>
    obtain rfl := List.mem_singleton.mp hsignal
    exact .setMode mode
  | pruneExpired =>
    obtain ⟨cutoff, -, rfl⟩ := List.mem_map.mp hsignal
    exact .prune cutoff
  | _ => cases hsignal

/-! ## What a command does to the watch -/

/-- Whether a governor got from one state to the next by acting on signals: the watch has run on
them, and what it published went to the notifier. -/
structure Relays (before : Governor) (signals : List Signal) (after : Governor) : Prop where
  settings : after.settings = before.settings
  watch : after.watch = (before.watch.run before.settings.drift signals).1
  notifier : after.notifier =
    (Drift.alertsOf (before.watch.run before.settings.drift signals).2).foldl
      (fun notifier alert => notifier.publish alert) before.notifier

namespace Relays

variable {before middle after : Governor} {first second : List Signal}

theorem append (hfirst : Relays before first middle) (hsecond : Relays middle second after) :
    Relays before (first ++ second) after := by
  obtain ⟨hsettings, hwatch, hnotifier⟩ := hsecond
  rw [hfirst.settings, hfirst.watch] at hwatch hnotifier
  rw [hfirst.notifier] at hnotifier
  refine ⟨hsettings.trans hfirst.settings, ?_, ?_⟩
  · rw [Watch.run_append]
    exact hwatch
  · rw [Watch.run_append, Drift.alertsOf_append, List.foldl_append]
    exact hnotifier

theorem publish (alerts : List Alert) (governor : Governor) :
    Relays governor (alerts.map .notice) (governor.publish alerts) := by
  have hrun : ∀ watch : Watch, watch.run governor.settings.drift (alerts.map .notice) =
      (watch, alerts.map .alert) := by
    intro watch
    induction alerts with
    | nil => rfl
    | cons alert rest ih => simp [Watch.run, Watch.receive, ih]
  refine ⟨rfl, ?_, ?_⟩
  · rw [hrun]
    rfl
  · rw [hrun, Drift.alertsOf_map_alert]
    rfl

theorem recordTradeResult (track : Drift.Track) (result : Float) (governor : Governor) :
    Relays governor [.trade governor.clock track result]
      (governor.recordTradeResult track result) := by
  refine ⟨rfl, ?_, ?_⟩
  · rw [Watch.run_singleton]
    rfl
  · rw [Watch.run_singleton]
    simp only [Watch.receive, Drift.alertsOf_map_alert]
    rfl

theorem forwardFill (fill : Shadow.BookedFill) (governor : Governor) :
    Relays governor (fillSignals governor.clock fill) (governor.forwardFill fill) :=
  (publish fill.alert.toList governor).append (recordTradeResult .shadow fill.result _)

theorem forwardFills (fills : List Shadow.BookedFill) (governor : Governor) :
    Relays governor (fills.flatMap (fillSignals governor.clock))
      (fills.foldl Governor.forwardFill governor) := by
  induction fills generalizing governor with
  | nil => exact ⟨rfl, rfl, rfl⟩
  | cons fill rest ih => exact (forwardFill fill governor).append (ih (governor.forwardFill fill))

theorem of_shadow (governor : Governor) {shadow : Shadow.Engine}
    (hrelays : Relays { governor with shadow } first after) : Relays governor first after :=
  ⟨hrelays.settings, hrelays.watch, hrelays.notifier⟩

theorem bookLive (symbol : String) (result : Float) (governor : Governor) :
    Relays governor (governor.signals (.bookLive symbol result))
      (governor.bookLive symbol result) :=
  of_shadow governor (publish _ _)

theorem reportShadow (symbol : String) (result : Float) (governor : Governor) :
    Relays governor (governor.signals (.reportShadow symbol result))
      (governor.reportShadow symbol result) :=
  let booked := governor.shadow.bookShadow governor.settings.shadow symbol result
  of_shadow governor (forwardFills booked.2.toList { governor with shadow := booked.1 })

theorem priceTick {symbol : String} {price : Float} {closed : List Shadow.Position}
    (htick : before.priceTick symbol price = .ok (after, closed)) :
    Relays before (before.signals (.priceTick symbol price)) after := by
  simp only [Governor.priceTick, Fault.bind_eq_ok_iff] at htick
  obtain ⟨⟨shadow, positions, fills⟩, hticked, hdone⟩ := htick
  simp only [Fault.pure_eq_ok_iff, Prod.mk.injEq] at hdone
  obtain ⟨rfl, -⟩ := hdone
  simp only [signals, hticked]
  exact of_shadow before (forwardFills fills { before with shadow })

theorem pruneExpired {now : Instant} {removals : Removals}
    (hprune : before.pruneExpired now = .ok (after, removals)) :
    Relays before (before.signals (.pruneExpired now)) after := by
  simp only [Governor.pruneExpired, Drift.Monitor.pruneExpired, Fault.bind_eq_ok_iff,
    Fault.pure_eq_ok_iff, Prod.mk.injEq, Prod.exists] at hprune
  obtain ⟨-, -, -, -, -, ⟨retention, hretention, cutoff, hcutoff, rfl, -⟩, -, -, -, -, -, -, -,
    rfl, -⟩ := hprune
  refine ⟨rfl, ?_, ?_⟩
  all_goals
    simp only [signals, hretention, hcutoff, bind, Except.bind, Except.toOption,
      Option.toList_some, List.map_cons, List.map_nil, Watch.run_singleton]
    rfl

end Relays

/-- Whatever part of the arena or of the costs a command changes, nothing is relayed. -/
theorem relays_nil {before after : Governor} (hsettings : after.settings = before.settings)
    (hwatch : after.watch = before.watch) (hnotifier : after.notifier = before.notifier) :
    Relays before [] after :=
  ⟨hsettings, hwatch, hnotifier⟩

/-- Every command but the one that empties the notifier relays its signals. -/
theorem relays_of_step {governor next : Governor} {command : Command}
    {answer : Except Refusal Reply} (hcommand : command ≠ .clearAlerts)
    (hstep : governor.step command = .ok (next, answer)) :
    Relays governor (governor.signals command) next := by
  cases command with
  | reportLive symbol result =>
    simp only [step, answering, Except.ok.injEq, Prod.mk.injEq] at hstep
    obtain ⟨rfl, -⟩ := hstep
    exact (Relays.bookLive symbol result governor).append (.recordTradeResult .live result _)
  | bookLive symbol result =>
    simp only [step, answering, Except.ok.injEq, Prod.mk.injEq] at hstep
    obtain ⟨rfl, -⟩ := hstep
    exact .bookLive symbol result governor
  | reportShadow symbol result =>
    simp only [step, answering, Except.ok.injEq, Prod.mk.injEq] at hstep
    obtain ⟨rfl, -⟩ := hstep
    exact .reportShadow symbol result governor
  | priceTick symbol price =>
    simp only [step, answering, Fault.bind_eq_ok_iff, Except.ok.injEq, Prod.mk.injEq] at hstep
    obtain ⟨ticked, htick, rfl, -⟩ := hstep
    exact .priceTick htick
  | recordTradeResult track result =>
    simp only [step, answering, Except.ok.injEq, Prod.mk.injEq] at hstep
    obtain ⟨rfl, -⟩ := hstep
    exact .recordTradeResult track result governor
  | pruneExpired now =>
    simp only [step, answering, Fault.bind_eq_ok_iff, Except.ok.injEq, Prod.mk.injEq] at hstep
    obtain ⟨pruned, hprune, rfl, -⟩ := hstep
    exact .pruneExpired hprune
  | clearAlerts => exact absurd rfl hcommand
  | advance span =>
    simp only [step, advance, answering, Fault.bind_eq_ok_iff, Fault.pure_eq_ok_iff,
      Except.ok.injEq, Prod.mk.injEq] at hstep
    obtain ⟨_, ⟨clock, -, rfl⟩, rfl, -⟩ := hstep
    exact relays_nil rfl rfl rfl
  | fill order price spread filledAt =>
    simp only [step, fill, answering, Fault.bind_eq_ok_iff, Fault.pure_eq_ok_iff,
      Except.ok.injEq, Prod.mk.injEq, Prod.exists] at hstep
    obtain ⟨_, _, ⟨costs, sample, -, rfl, -⟩, rfl, -⟩ := hstep
    exact relays_nil rfl rfl rfl
  | setClock _ | submit _ | registerShadow _ | restorePosition _ | resetMonitor | setKillSwitch _
  | setMode _ =>
    simp only [step, answering, Except.ok.injEq, Prod.mk.injEq] at hstep
    obtain ⟨rfl, -⟩ := hstep
    exact ⟨rfl, rfl, rfl⟩
  | _ =>
    rw [eq_withArena_of_step rfl (fun _ => Command.noConfusion) hstep]
    exact relays_nil rfl rfl rfl

/-- Every command leads the watch along its signals. -/
theorem watch_of_step {governor next : Governor} {command : Command}
    {answer : Except Refusal Reply} (hstep : governor.step command = .ok (next, answer)) :
    next.watch = (governor.watch.run governor.settings.drift (governor.signals command)).1 := by
  cases command with
  | clearAlerts =>
    simp only [step, answering, Except.ok.injEq, Prod.mk.injEq] at hstep
    obtain ⟨rfl, -⟩ := hstep
    rfl
  | _ => exact (relays_of_step Command.noConfusion hstep).watch

end Governor

/-! ## The signals of a history -/

def signalsOf : List Turn → List Signal
  | [] => []
  | turn :: past => signalsOf past ++ turn.before.signals turn.command

/-- What the watch did in public along a history, oldest first. -/
def transcript : List Turn → List Entry
  | [] => []
  | turn :: past =>
    transcript past ++ (turn.before.watch.run turn.before.settings.drift
      (turn.before.signals turn.command)).2

def published (turns : List Turn) : List Alert := Drift.alertsOf (transcript turns)

section

variable {start governor : Governor} {turns : List Turn}

/-- Every signal of a history is one of a turn of it. -/
theorem exists_turn_of_mem_signalsOf {signal : Signal} (hsignal : signal ∈ signalsOf turns) :
    ∃ turn ∈ turns, signal ∈ turn.before.signals turn.command := by
  induction turns with
  | nil => cases hsignal
  | cons turn past ih =>
    obtain hpast | hturn := List.mem_append.mp hsignal
    · obtain ⟨earlier, hearlier, hsent⟩ := ih hpast
      exact ⟨earlier, List.mem_cons_of_mem _ hearlier, hsent⟩
    · exact ⟨turn, List.mem_cons_self, hturn⟩

/-- Every signal of a history was sent by one of its commands. -/
theorem sends_of_mem_signalsOf {signal : Signal} (hsignal : signal ∈ signalsOf turns) :
    ∃ turn ∈ turns, Governor.Sends turn.command signal := by
  obtain ⟨turn, hturn, hsent⟩ := exists_turn_of_mem_signalsOf hsignal
  exact ⟨turn, hturn, Governor.sends_of_mem_signals hsent⟩

/-- A history gives notice of nothing but divergence. -/
theorem isDivergence_of_notice (turns : List Turn) (alert : Alert)
    (hnotice : .notice alert ∈ signalsOf turns) : alert.isDivergence = true := by
  obtain ⟨turn, -, hsends⟩ := sends_of_mem_signalsOf hnotice
  exact hsends.isDivergence

/-- A history is one run of the watch. -/
theorem History.run_watch (hhistory : History start turns governor) :
    start.watch.run start.settings.drift (signalsOf turns) =
      (governor.watch, transcript turns) := by
  induction hhistory with
  | start => rfl
  | turn past step ih =>
    rw [signalsOf, Watch.run_append, ih, Governor.watch_of_step step, transcript,
      past.settings_eq]

theorem Notifier.foldl_publish_recorder (alerts kept : List Alert) :
    alerts.foldl (fun (notifier : Notifier) alert => notifier.publish alert) (.recorder kept) =
      .recorder (kept ++ alerts) := by
  induction alerts generalizing kept with
  | nil => rw [List.append_nil]; rfl
  | cons alert rest ih =>
    rw [List.foldl_cons, Notifier.publish, ih, List.append_assoc]
    rfl

/-- A recording notifier that nobody empties keeps every alert that was published. -/
theorem History.notifier_eq (hhistory : History start turns governor) {kept : List Alert}
    (hrecorder : start.notifier = .recorder kept)
    (hclears : ∀ turn ∈ turns, turn.command ≠ .clearAlerts) :
    governor.notifier = .recorder (kept ++ published turns) := by
  induction hhistory with
  | start => rw [hrecorder, published, transcript, Drift.alertsOf_nil, List.append_nil]
  | turn past step ih =>
    obtain ⟨hcommand, hpast⟩ := List.forall_mem_cons.mp hclears
    rw [(Governor.relays_of_step hcommand step).notifier, ih hpast,
      Notifier.foldl_publish_recorder, published, published, transcript, Drift.alertsOf_append,
      List.append_assoc]

theorem Governor.watch_create {settings : Settings} {entropy : Seeding} {notifier : Notifier}
    {clock : Instant} (hcreate : create settings entropy notifier clock = .ok start) :
    ∃ window, start.watch =
      ⟨⟨.normal, Drift.Stage.normal.multiplier, window, window, 0⟩, .initial⟩ := by
  simp only [create, Drift.Monitor.create, Fault.bind_eq_ok_iff, Fault.pure_eq_ok_iff] at hcreate
  obtain ⟨_, -, _, ⟨window, -, rfl⟩, rfl⟩ := hcreate
  exact ⟨window, rfl⟩

end

end ExposureControl
