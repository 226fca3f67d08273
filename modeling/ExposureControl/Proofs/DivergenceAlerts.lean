import ExposureControl.Proofs.DriftGate
import ExposureControl.Proofs.Movements

/-!
# Alerts of divergence

Every finite result that is booked, be it live, explicit or that of a close, is checked once, with
the totals as they are right after it.  So the alerts of a symbol are read off its movements, none
is left out and none is repeated, and the engine's count of alerts is the number of all that were
published.
-/

namespace ExposureControl

namespace Shadow

/-- The alerts that are due by the totals of a symbol at several moments: one for each moment at
which live and shadow results do not lie less than the threshold apart, in percent of the live
result or of one, and at which enough closes were counted. -/
def dueAlerts (settings : Settings.Shadow) (symbol : String) (moments : List Totals) :
    List Alert :=
  moments.filterMap fun totals =>
    let percent := (totals.shadow - totals.live) / Binary64.larger totals.live.abs 1.0 * 100.0
    if ¬ percent.abs < settings.divergenceThreshold ∧
        settings.divergenceMinTrades ≤ totals.closedTrades then
      some (.divergence symbol totals.live totals.shadow percent)
    else none

/-- A notifier after the alerts of events were published there, one after the other. -/
def publishAll (notifier : Notifier) : List Event → Notifier
  | [] => notifier
  | event :: past =>
    event.answer.alerts.foldl (fun notifier alert => notifier.publish alert)
      (publishAll notifier past)

/-- A recording notifier keeps every alert that the events handed on. -/
theorem publishAll_recorder (kept : List Alert) (events : List Event) :
    publishAll (.recorder kept) events = .recorder (kept ++ alertsOf events) := by
  induction events with
  | nil => rw [publishAll, alertsOf, List.append_nil]
  | cons event past ih =>
    rw [publishAll, ih, Notifier.foldl_publish_recorder, alertsOf, List.append_assoc]

theorem Totals.raised_eq_dueAlerts {settings : Settings.Shadow} (henabled : settings.enabled = true)
    (symbol : String) (moments : List Totals) :
    raised settings symbol moments = dueAlerts settings symbol moments := by
  have hdiverges : ∀ totals : Totals, totals.diverges settings = true ↔
      ¬ totals.divergence.abs < settings.divergenceThreshold ∧
        settings.divergenceMinTrades ≤ totals.closedTrades := by
    intro totals
    simp [diverges]
  rw [raised, ← List.filterMap_eq_filter, List.map_filterMap]
  refine List.filterMap_congr fun totals _ => ?_
  rw [Option.guard, henabled, Bool.true_and]
  by_cases hdue : totals.diverges settings = true
  · rw [if_pos hdue]
    exact (if_pos ((hdiverges totals).mp hdue)).symm
  · rw [if_neg hdue]
    exact (if_neg fun hdue' => hdue ((hdiverges totals).mpr hdue')).symm

/-- What an engine that is switched on has published along events: the alerts that are due by every
symbol's movements, and as many in all as it has counted. -/
structure AlertsAccounted (settings : Settings.Shadow) (events : List Event) (engine : Engine) :
    Prop where
  /-- The totals have added up the movements so far, from zero. -/
  totals : ∀ symbol, engine.totalsOf symbol =
    Totals.zero.moves (movementsOf settings symbol events)
  /-- Every finite result was checked once, with the totals as they were right after it. -/
  published : ∀ symbol, (publishAll (.recorder []) events).kept.filter (Alert.concerns symbol) =
    dueAlerts settings symbol (Totals.zero.moments (movementsOf settings symbol events))
  counted : engine.alerts = (publishAll (.recorder []) events).divergences

/-- An engine that has moved from its start has published what its movements call for. -/
theorem accounted_of_moved {settings : Settings.Shadow} {events : List Event} {engine : Engine}
    (henabled : settings.enabled = true)
    (hmoved : Engine.empty.Moved settings (fun symbol => movementsOf settings symbol events)
      (alertsOf events) engine) : AlertsAccounted settings events engine where
  totals := hmoved.totals
  published symbol := by
    rw [publishAll_recorder, Notifier.kept, List.nil_append, hmoved.raised,
      Totals.raised_eq_dueAlerts henabled]
    rfl
  counted := by
    rw [publishAll_recorder, Notifier.divergences, Notifier.kept, List.nil_append,
      List.countP_eq_length.mpr hmoved.divergences, hmoved.counted]
    exact Nat.zero_add _

/-- Along every run of an engine that is switched on, the alerts of a symbol are those that are due
by its movements, and the count of alerts is the number of all that were published. -/
theorem alerts_accounted {settings : Settings.Shadow} {events : List Event} {engine : Engine}
    (henabled : settings.enabled = true)
    (htrace : Trace (Engine.perform settings) .empty events engine) :
    AlertsAccounted settings events engine :=
  accounted_of_moved henabled (moved_of_trace htrace)

/-- One price closes four positions, of which the second one has an infinite result.  That close is
counted without being booked, so that the third one is the first to raise an alert, and the fourth
raises another.  A live result that brings the two together raises none, an undefined one is
dropped, and the next shadow result raises an alert again. -/
theorem alerts_accounted_of_closes :
    ∃ events engine, Trace (Engine.perform { divergenceMinTrades := 3 }) .empty events engine ∧
      (movementsOf { divergenceMinTrades := 3 } "BTC" events).length = 9 ∧
      (Totals.zero.moments (movementsOf { divergenceMinTrades := 3 } "BTC" events)).map
        Totals.closedTrades = [1, 3, 4, 4, 4] ∧
      engine.alerts = 3 ∧ AlertsAccounted { divergenceMinTrades := 3 } events engine := by
  let ticket (quantity : Float) : Ticket := ⟨"BTC", .buy, 100.0, quantity, 90.0, 110.0⟩
  let calls : List Call :=
    [.register (ticket 1.0) ⟨0⟩, .register (ticket 1.0e308) ⟨0⟩, .register (ticket 2.0) ⟨0⟩,
      .register (ticket 3.0) ⟨0⟩, .tick "BTC" 120.0 ⟨1⟩, .bookLive "BTC" 120.0,
      .bookLive "BTC" (0.0 / 0.0), .prune ⟨2⟩, .bookShadow "ETH" 50.0, .bookShadow "BTC" 50.0]
  have hreplays : Trace.replays (Engine.perform { divergenceMinTrades := 3 }) .empty calls
      (fun events engine =>
        (movementsOf { divergenceMinTrades := 3 } "BTC" events).length == 9 &&
        (Totals.zero.moments (movementsOf { divergenceMinTrades := 3 } "BTC" events)).map
          Totals.closedTrades == [1, 3, 4, 4, 4] &&
        engine.alerts == 3) = true := by
    decide +kernel
  obtain ⟨events, engine, htrace, -, hcheck⟩ := Trace.exists_of_replays hreplays
  simp only [Bool.and_eq_true, beq_iff_eq] at hcheck
  obtain ⟨⟨hmovements, hmoments⟩, halerts⟩ := hcheck
  exact ⟨events, engine, htrace, hmovements, hmoments, halerts, alerts_accounted rfl htrace⟩

end Shadow

/-! ## The recorder of a governor -/

namespace Drift

/-- The alert that a signal gives notice of. -/
def Signal.notice? : Signal → Option Alert
  | .notice alert => some alert
  | _ => none

namespace Watch

variable {settings : Settings.Drift}

theorem divergences_receive (watch : Watch) (signal : Signal)
    (hnotice : ∀ alert, signal = .notice alert → alert.isDivergence = true) :
    (alertsOf (watch.receive settings signal).2).filter Alert.isDivergence =
      signal.notice?.toList := by
  cases signal with
  | notice alert => exact List.filter_cons_of_pos (hnotice alert rfl)
  | reset | setKillSwitch | setMode | prune => rfl
  | trade now track result =>
    obtain ⟨alerts, hentries, hcases⟩ := watch.receive_trade settings now track result
    rw [hentries, alertsOf_map_alert]
    cases hcases with
    | stays | recovers => rfl
    | climbs =>
      rw [List.filter_cons_of_neg (by simp [Alert.isDivergence])]
      split <;> rfl

theorem divergences_run (watch : Watch) {signals : List Signal}
    (hnotices : ∀ alert, .notice alert ∈ signals → alert.isDivergence = true) :
    (alertsOf (watch.run settings signals).2).filter Alert.isDivergence =
      signals.filterMap Signal.notice? := by
  induction signals generalizing watch with
  | nil => rfl
  | cons signal rest ih =>
    have hfirst := @watch.divergences_receive settings signal
      fun alert hsignal => hnotices alert (hsignal ▸ List.mem_cons_self)
    have hrest := ih (watch.receive settings signal).1
      fun alert hsignal => hnotices alert (List.mem_cons_of_mem _ hsignal)
    simp only [run, alertsOf_append, List.filter_append]
    rw [hfirst, hrest, List.filterMap_cons]
    cases signal.notice? <;> rfl

end Watch

end Drift

namespace Governor

open Drift (Signal)

theorem notices_map_notice (alerts : List Alert) :
    (alerts.map Signal.notice).filterMap Signal.notice? = alerts := by
  rw [List.filterMap_map]
  exact List.filterMap_some

theorem notices_of_fills (now : Instant) (fills : List Shadow.BookedFill) :
    (fills.flatMap (fillSignals now)).filterMap Signal.notice? =
      fills.filterMap Shadow.BookedFill.alert := by
  induction fills with
  | nil => rfl
  | cons fill rest ih =>
    have htrade : [Signal.trade now .shadow fill.result].filterMap Signal.notice? = [] := rfl
    rw [List.flatMap_cons, List.filterMap_append, ih, fillSignals, List.filterMap_append,
      notices_map_notice, htrade, List.append_nil]
    cases hraised : fill.alert <;> simp [hraised]

/-- A command gives notice of the alerts that its call of the shadow engine answers with. -/
theorem notices_of_perform {governor : Governor} {command : Command} {call : Shadow.Call}
    {after : Shadow.Engine} {given : Shadow.Answer}
    (hcall : command.shadowCall? governor.clock = some call)
    (hperform : governor.shadow.perform governor.settings.shadow call = .ok (after, given)) :
    (governor.signals command).filterMap Signal.notice? = given.alerts := by
  have hperformed := Shadow.Engine.performed_iff.mp hperform
  cases command with
  | registerShadow ticket | restorePosition position =>
    cases hcall
    cases hperformed
    rfl
  | priceTick symbol price =>
    cases hcall
    cases hperformed with
    | @tick _ _ _ _ closed fills htick =>
      simp only [signals, htick]
      exact notices_of_fills governor.clock fills
  | reportLive symbol result =>
    cases hcall
    cases hperformed
    rw [signals, List.filterMap_append, notices_map_notice]
    exact List.append_nil _
  | bookLive symbol result =>
    cases hcall
    cases hperformed
    rw [signals, notices_map_notice]
    rfl
  | reportShadow symbol result =>
    cases hcall
    cases hperformed
    rw [signals, notices_of_fills, Shadow.Engine.filterMap_alert_toList]
    rfl
  | pruneExpired now =>
    cases hcall
    cases hperformed
    rw [signals, List.filterMap_map]
    exact List.filterMap_eq_nil_iff.mpr fun _ _ => rfl
  | _ => cases hcall

theorem notices_of_no_call {governor : Governor} {command : Command}
    (hcall : command.shadowCall? governor.clock = none) :
    (governor.signals command).filterMap Signal.notice? = [] := by
  cases command with
  | registerShadow | priceTick | restorePosition | reportLive | bookLive | reportShadow
  | pruneExpired => cases hcall
  | _ => rfl

end Governor

/-- What a history publishes of divergence is what the shadow engine's answers to the calls of the
history hand on. -/
theorem History.exists_trace_of_alerts {start governor : Governor} {turns : List Turn}
    (hhistory : History start turns governor) :
    ∃ events, Trace (Shadow.Engine.perform start.settings.shadow) start.shadow events
        governor.shadow ∧
      events.map Event.call = turns.filterMap Turn.shadowCall? ∧
      (published turns).filter Alert.isDivergence = Shadow.alertsOf events := by
  induction hhistory with
  | start => exact ⟨[], .start, rfl, rfl⟩
  | @turn turns before next command answer past step ih =>
    obtain ⟨events, htrace, hcalls, halerts⟩ := ih
    have hdone := Governor.shadow_of_step step
    have hpublished : (published (⟨before, command, answer, next⟩ :: turns)).filter
          Alert.isDivergence =
        Shadow.alertsOf events ++ (before.signals command).filterMap Drift.Signal.notice? := by
      rw [published, transcript, Drift.alertsOf_append, List.filter_append, ← published, halerts,
        Drift.Watch.divergences_run]
      exact fun alert hnotice => (Governor.sends_of_mem_signals hnotice).isDivergence
    rw [hpublished]
    cases hcall : command.shadowCall? before.clock with
    | none =>
      have hturn : Turn.shadowCall? ⟨before, command, answer, next⟩ = none := hcall
      rw [hcall] at hdone
      exact ⟨events, hdone ▸ htrace, by rw [List.filterMap_cons_none hturn, hcalls], by
        rw [Governor.notices_of_no_call hcall, List.append_nil]⟩
    | some call =>
      have hturn : Turn.shadowCall? ⟨before, command, answer, next⟩ = some call := hcall
      rw [hcall] at hdone
      obtain ⟨given, hperform⟩ := hdone
      have hnotices := Governor.notices_of_perform hcall hperform
      rw [past.settings_eq] at hperform
      exact ⟨_, htrace.event hperform, by
        rw [List.filterMap_cons_some hturn, List.map_cons, hcalls], by rw [hnotices]; rfl⟩

/-- Where the shadow engine of a governor is switched on, a recording notifier that nobody empties
holds the alerts that are due by the movements of the history. -/
theorem History.exists_accounted_trace {settings : Settings} {entropy : Seeding} {clock : Instant}
    {start governor : Governor} {turns : List Turn} (henabled : settings.shadow.enabled = true)
    (hcreate : Governor.create settings entropy (.recorder []) clock = .ok start)
    (hhistory : History start turns governor)
    (hclears : ∀ turn ∈ turns, turn.command ≠ .clearAlerts) :
    ∃ events, Trace (Shadow.Engine.perform settings.shadow) .empty events governor.shadow ∧
      events.map Event.call = turns.filterMap Turn.shadowCall? ∧
      governor.notifier.kept.filter Alert.isDivergence =
        (Shadow.publishAll (.recorder []) events).kept ∧
      Shadow.AlertsAccounted settings.shadow events governor.shadow := by
  simp only [Governor.create, Fault.bind_eq_ok_iff, Fault.pure_eq_ok_iff] at hcreate
  obtain ⟨_, -, _, -, rfl⟩ := hcreate
  obtain ⟨events, htrace, hcalls, halerts⟩ := hhistory.exists_trace_of_alerts
  refine ⟨events, htrace, hcalls, ?_,
    Shadow.accounted_of_moved henabled (Shadow.moved_of_trace htrace)⟩
  rw [hhistory.notifier_eq rfl hclears, Shadow.publishAll_recorder]
  exact halerts

end ExposureControl
