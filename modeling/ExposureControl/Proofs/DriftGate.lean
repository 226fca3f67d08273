import ExposureControl.Proofs.DriftSignals
import Mathlib.Data.List.Induction

/-!
# The gate follows the ladder

Sizing and trading mode are those of the stage on which the monitor stands, the monitor's count of
downgrades is the number of escalations that were published, and the kill switch is active exactly
when the monitor has come to the last rung since the switch was last released.
-/

namespace ExposureControl

theorem concat_eq_append_cons_iff {α : Type} {entries earlier later : List α} {last entry : α} :
    entries ++ [last] = earlier ++ entry :: later ↔
      (earlier = entries ∧ entry = last ∧ later = []) ∨
        ∃ middle, later = middle ++ [last] ∧ entries = earlier ++ entry :: middle := by
  constructor
  · intro hsplit
    obtain rfl | ⟨middle, final, rfl⟩ := List.eq_nil_or_concat' later
    · obtain ⟨rfl, hsame⟩ := List.append_inj' hsplit rfl
      exact .inl ⟨rfl, (List.singleton_inj.mp hsame).symm, rfl⟩
    · rw [← List.cons_append, ← List.append_assoc] at hsplit
      obtain ⟨rfl, hsame⟩ := List.append_inj' hsplit rfl
      exact .inr ⟨middle, by rw [hsame], rfl⟩
  · rintro (⟨rfl, rfl, rfl⟩ | ⟨middle, rfl, rfl⟩)
    · rfl
    · rw [List.append_assoc, List.cons_append]

namespace Alert

def isEscalation : Alert → Bool
  | escalated .. => true
  | _ => false

end Alert

namespace Drift

variable {settings : Settings.Drift} {watch before after : Watch}

/-! ## What one evaluation does -/

/-- What the watch does with a trade, and the alerts by which it tells of that. -/
inductive Evaluation (settings : Settings.Drift) (before after : Watch) : List Alert → Prop
  /-- The stage stays, and all that depends on it. -/
  | stays (hstage : after.monitor.stage = before.monitor.stage)
      (hmultiplier : after.monitor.multiplier = before.monitor.multiplier)
      (hdowngrades : after.monitor.downgrades = before.monitor.downgrades)
      (hgate : after.gate = before.gate) : Evaluation settings before after []
  /-- The watch climbs one rung because of a breach. -/
  | climbs {breaches : Breaches} (henabled : settings.enabled = true)
      (hauto : settings.autoDowngrade = true) (hbreaches : breaches.any = true)
      (hroom : before.monitor.stage ≠ .paused)
      (hstage : after.monitor.stage = before.monitor.stage.escalated)
      (hmultiplier : after.monitor.multiplier = after.monitor.stage.multiplier)
      (hdowngrades : after.monitor.downgrades = before.monitor.downgrades + 1)
      (hgate : after.gate = before.gate.enter after.monitor.stage) :
      Evaluation settings before after
        (.escalated before.monitor.stage after.monitor.stage breaches ::
          if after.monitor.stage = .paused then
            [.halted (Monitor.haltReason before.monitor.stage after.monitor.stage)]
          else [])
  /-- The watch comes back one rung. -/
  | recovers (hroom : before.monitor.stage ≠ .normal)
      (hstage : after.monitor.stage = before.monitor.stage.recovered)
      (hmultiplier : after.monitor.multiplier = after.monitor.stage.multiplier)
      (hdowngrades : after.monitor.downgrades = before.monitor.downgrades)
      (hgate : after.gate = before.gate.enter after.monitor.stage) :
      Evaluation settings before after
        [.recovered before.monitor.stage after.monitor.stage]

/-- Windows have no part in what an evaluation tells of the watch before it. -/
theorem Evaluation.congr {other : Watch} {alerts : List Alert}
    (hstage : other.monitor.stage = before.monitor.stage)
    (hmultiplier : other.monitor.multiplier = before.monitor.multiplier)
    (hdowngrades : other.monitor.downgrades = before.monitor.downgrades)
    (hgate : other.gate = before.gate) (hcases : Evaluation settings other after alerts) :
    Evaluation settings before after alerts := by
  cases hcases with
  | stays hafter hafterMultiplier hafterDowngrades hafterGate =>
    exact .stays (hafter.trans hstage) (hafterMultiplier.trans hmultiplier)
      (hafterDowngrades.trans hdowngrades) (hafterGate.trans hgate)
  | climbs henabled hauto hbreaches hroom hafter hafterMultiplier hafterDowngrades hafterGate =>
    rw [hstage] at hroom hafter
    rw [hdowngrades] at hafterDowngrades
    rw [hgate] at hafterGate
    rw [hstage]
    exact .climbs henabled hauto hbreaches hroom hafter hafterMultiplier hafterDowngrades
      hafterGate
  | recovers hroom hafter hafterMultiplier hafterDowngrades hafterGate =>
    rw [hstage] at hroom hafter
    rw [hdowngrades] at hafterDowngrades
    rw [hgate] at hafterGate
    rw [hstage]
    exact .recovers hroom hafter hafterMultiplier hafterDowngrades hafterGate

theorem Stage.escalated_eq_self_iff (stage : Stage) :
    stage.escalated = stage ↔ stage = .paused := by
  cases stage <;> decide

theorem Monitor.evaluate_cases (henabled : settings.enabled = true) (monitor : Monitor)
    (gate : Gate) :
    ∃ next alerts, monitor.evaluate settings gate = (next.monitor, next.gate, alerts) ∧
      Evaluation settings ⟨monitor, gate⟩ next alerts := by
  dsimp only [evaluate]
  split
  · exact ⟨⟨monitor, gate⟩, [], rfl, .stays rfl rfl rfl rfl⟩
  · split
    · next hbreaches =>
      dsimp only [escalate]
      split
      · exact ⟨⟨monitor, gate⟩, [], rfl, .stays rfl rfl rfl rfl⟩
      · next hclimbs =>
        simp only [Bool.or_eq_true, Bool.not_eq_true', decide_eq_true_eq, not_or,
          Stage.escalated_eq_self_iff] at hclimbs
        exact ⟨⟨{ monitor.enter monitor.stage.escalated with
            downgrades := monitor.downgrades + 1 }, gate.enter monitor.stage.escalated⟩, _, rfl,
          .climbs henabled (by simpa using hclimbs.1) hbreaches hclimbs.2 rfl rfl rfl rfl⟩
    · dsimp only [recover]
      split
      · exact ⟨⟨monitor, gate⟩, [], rfl, .stays rfl rfl rfl rfl⟩
      · next hrecovers =>
        simp only [Bool.or_eq_true, decide_eq_true_eq, not_or] at hrecovers
        exact ⟨⟨monitor.enter monitor.stage.recovered, gate.enter monitor.stage.recovered⟩, _, rfl,
          .recovers hrecovers.1 rfl rfl rfl rfl⟩

theorem Watch.receive_trade (settings : Settings.Drift) (watch : Watch) (now : Instant)
    (track : Track) (result : Float) :
    ∃ alerts, (watch.receive settings (.trade now track result)).2 = alerts.map .alert ∧
      Evaluation settings watch (watch.receive settings (.trade now track result)).1 alerts := by
  dsimp only [receive, Monitor.record]
  split
  · next hrecorded =>
    obtain ⟨next, alerts, hevaluate, hcases⟩ := Monitor.evaluate_cases
      (Bool.and_eq_true_iff.mp hrecorded).1 (watch.monitor.push track ⟨now, result⟩) watch.gate
    rw [hevaluate]
    -- a trade that is pushed into a window changes nothing else
    refine ⟨alerts, rfl, ?_⟩
    cases track <;> exact Evaluation.congr (by rfl) (by rfl) (by rfl) (by rfl) hcases
  · exact ⟨[], rfl, .stays rfl rfl rfl rfl⟩

/-! ## What a run keeps -/

/-- Whether size and mode are those of the stage. -/
structure Watch.Settled (watch : Watch) : Prop where
  multiplier : watch.monitor.multiplier = watch.monitor.stage.multiplier
  mode : watch.gate.mode = watch.monitor.stage.mode

/-- Whether a signal sets by hand what the ladder is to set. -/
def Signal.overrides : Signal → Bool
  | .setMode _ => true
  | .setKillSwitch active => active
  | _ => false

namespace Watch

theorem Settled.receive (hsettled : watch.Settled) {signal : Signal}
    (hsignal : signal.overrides = false) : (watch.receive settings signal).1.Settled := by
  cases signal with
  | notice | setKillSwitch | prune => exact ⟨hsettled.multiplier, hsettled.mode⟩
  | reset => exact ⟨rfl, rfl⟩
  | setMode => cases hsignal
  | trade now track result =>
    obtain ⟨alerts, -, hcases⟩ := watch.receive_trade settings now track result
    cases hcases with
    | stays hstage hmultiplier _ hgate =>
      exact ⟨by rw [hmultiplier, hstage, hsettled.multiplier],
        by rw [hgate, hstage, hsettled.mode]⟩
    | climbs _ _ _ _ _ hmultiplier _ hgate => exact ⟨hmultiplier, by rw [hgate, Gate.mode_enter]⟩
    | recovers _ _ hmultiplier _ hgate => exact ⟨hmultiplier, by rw [hgate, Gate.mode_enter]⟩

theorem Settled.run {signals : List Signal} (hsettled : watch.Settled)
    (hsignals : ∀ signal ∈ signals, signal.overrides = false) :
    (watch.run settings signals).1.Settled := by
  induction signals generalizing watch with
  | nil => exact hsettled
  | cons signal rest ih =>
    obtain ⟨hfirst, hrest⟩ := List.forall_mem_cons.mp hsignals
    exact ih (hsettled.receive hfirst) hrest

/-! ## Counting downgrades -/

theorem downgrades_receive (settings : Settings.Drift) (watch : Watch) (signal : Signal)
    (hnotice : ∀ alert, signal = .notice alert → alert.isDivergence = true) :
    (watch.receive settings signal).1.monitor.downgrades = watch.monitor.downgrades +
      (alertsOf (watch.receive settings signal).2).countP Alert.isEscalation := by
  cases signal with
  | notice alert =>
    cases alert with
    | divergence => rfl
    | escalated | recovered | halted => cases hnotice _ rfl
  | reset | setKillSwitch | setMode | prune => rfl
  | trade now track result =>
    obtain ⟨alerts, hentries, hcases⟩ := watch.receive_trade settings now track result
    rw [hentries, alertsOf_map_alert]
    cases hcases with
    | stays _ _ hdowngrades => exact hdowngrades
    | climbs _ _ _ _ _ _ hdowngrades =>
      rw [hdowngrades, List.countP_cons_of_pos rfl]
      split <;> rfl
    | recovers _ _ _ hdowngrades => exact hdowngrades

theorem downgrades_run (settings : Settings.Drift) (watch : Watch) {signals : List Signal}
    (hnotices : ∀ alert, .notice alert ∈ signals → alert.isDivergence = true) :
    (watch.run settings signals).1.monitor.downgrades = watch.monitor.downgrades +
      (alertsOf (watch.run settings signals).2).countP Alert.isEscalation := by
  induction signals generalizing watch with
  | nil => rfl
  | cons signal rest ih =>
    have hfirst := downgrades_receive settings watch signal
      fun alert hsignal => hnotices alert (hsignal ▸ List.mem_cons_self)
    have hrest := ih (watch.receive settings signal).1
      fun alert hsignal => hnotices alert (List.mem_cons_of_mem _ hsignal)
    simp only [run, alertsOf_append, List.countP_append]
    rw [hrest, hfirst, Nat.add_assoc]

/-! ## The kill switch -/

/-- Whether a signal brings the watch to the last rung from another one. -/
def Pauses (settings : Settings.Drift) (watch : Watch) (signal : Signal) : Prop :=
  watch.monitor.stage ≠ .paused ∧ (watch.receive settings signal).1.monitor.stage = .paused

/-- Whether the watch has come to the last rung since the kill switch was last released, or since
the start of the run if it never was. -/
def PausedSinceRelease (settings : Settings.Drift) (start : Watch) (signals : List Signal) :
    Prop :=
  ∃ earlier signal later, signals = earlier ++ signal :: later ∧
    (start.run settings earlier).1.Pauses settings signal ∧ .setKillSwitch false ∉ later

/-- After a signal that sets nothing by hand the kill switch is active if the signal is no release
and the switch was active before or the signal brings the watch to the last rung. -/
theorem killSwitch_receive {signal : Signal} (hsignal : signal.overrides = false) :
    (watch.receive settings signal).1.gate.killSwitch = true ↔
      signal ≠ .setKillSwitch false ∧
        (watch.gate.killSwitch = true ∨ watch.Pauses settings signal) := by
  cases signal with
  | notice | prune =>
    simp [receive, Pauses, Monitor.pruneBefore]
  | reset => simp [receive, Pauses, Gate.enter, Monitor.reset, Monitor.enter]
  | setMode => cases hsignal
  | setKillSwitch active =>
    obtain rfl : active = false := hsignal
    simp [receive]
  | trade now track result =>
    obtain ⟨alerts, -, hcases⟩ := watch.receive_trade settings now track result
    simp only [Pauses, ne_eq, reduceCtorEq, not_false_eq_true, true_and]
    cases hcases with
    | stays hstage _ _ hgate =>
      rw [hgate, hstage]
      exact ⟨.inl, fun hactive => hactive.resolve_right fun hpauses => hpauses.1 hpauses.2⟩
    | climbs _ _ _ hroom _ _ _ hgate =>
      rw [hgate, Gate.killSwitch_enter, Bool.or_eq_true, decide_eq_true_eq]
      exact or_congr_right (by simp [hroom])
    | recovers _ hstage _ _ hgate =>
      have hbelow : (watch.receive settings (.trade now track result)).1.monitor.stage ≠
          .paused := by
        rw [hstage]
        cases watch.monitor.stage <;> decide
      rw [hgate, Gate.killSwitch_enter]
      simp [hbelow]

theorem killSwitch_run_of_active {signals : List Signal}
    (hsignals : .setKillSwitch false ∉ signals) (hactive : watch.gate.killSwitch = true) :
    (watch.run settings signals).1.gate.killSwitch = true := by
  induction signals generalizing watch with
  | nil => exact hactive
  | cons signal rest ih =>
    obtain ⟨hfirst, hrest⟩ := not_or.mp (mt List.mem_cons.mpr hsignals)
    refine ih hrest ?_
    cases hoverrides : signal.overrides with
    | false => exact (killSwitch_receive hoverrides).mpr ⟨Ne.symm hfirst, .inl hactive⟩
    | true =>
      cases signal with
      | setMode => exact hactive
      | setKillSwitch => exact hoverrides
      | _ => cases hoverrides

/-- A run that goes on by one signal. -/
theorem pausedSinceRelease_concat (settings : Settings.Drift) (start : Watch)
    (signals : List Signal) (last : Signal) :
    PausedSinceRelease settings start (signals ++ [last]) ↔
      (start.run settings signals).1.Pauses settings last ∨
        (last ≠ .setKillSwitch false ∧ PausedSinceRelease settings start signals) := by
  constructor
  · rintro ⟨earlier, signal, later, hsplit, hpauses, hlater⟩
    obtain ⟨rfl, rfl, rfl⟩ | ⟨middle, rfl, rfl⟩ := concat_eq_append_cons_iff.mp hsplit
    · exact .inl hpauses
    · simp only [List.mem_append, List.mem_singleton, not_or] at hlater
      exact .inr ⟨Ne.symm hlater.2, earlier, signal, middle, rfl, hpauses, hlater.1⟩
  · rintro (hpauses | ⟨hlast, earlier, signal, later, rfl, hpauses, hlater⟩)
    · exact ⟨signals, last, [], rfl, hpauses, List.not_mem_nil⟩
    · refine ⟨earlier, signal, later ++ [last],
        concat_eq_append_cons_iff.mpr (.inr ⟨later, rfl, rfl⟩), hpauses, ?_⟩
      simp only [List.mem_append, List.mem_singleton, not_or]
      exact ⟨hlater, Ne.symm hlast⟩

/-- Along a run that starts with the kill switch at rest and sets nothing by hand, the switch is
active exactly when the watch has come to the last rung since the last release. -/
theorem killSwitch_run {start : Watch} (hstart : start.gate.killSwitch = false)
    (signals : List Signal) (hsignals : ∀ signal ∈ signals, signal.overrides = false) :
    (start.run settings signals).1.gate.killSwitch = true ↔
      PausedSinceRelease settings start signals := by
  induction signals using List.reverseRecOn with
  | nil =>
    rw [run_nil, hstart]
    refine iff_of_false Bool.false_ne_true ?_
    rintro ⟨earlier, signal, later, hsplit, -⟩
    cases earlier <;> cases hsplit
  | append_singleton signals last ih =>
    simp only [List.forall_mem_append, List.forall_mem_singleton] at hsignals
    have hpauses : (start.run settings signals).1.Pauses settings last →
        last ≠ .setKillSwitch false := by
      rintro ⟨hbelow, hpaused⟩ rfl
      exact hbelow hpaused
    rw [run_append, run_singleton, pausedSinceRelease_concat, killSwitch_receive hsignals.2,
      ih hsignals.1]
    tauto

end Watch

end Drift

open Drift (Watch Signal Entry)

variable {start governor : Governor} {turns : List Turn}

/-! ## The governor -/

/-- Whether a command sets by hand what the ladder is to set.  Releasing the kill switch does
not. -/
def Command.overridesLadder : Command → Bool
  | .setMode _ => true
  | .setKillSwitch active => active
  | _ => false

theorem Governor.Sends.overrides_eq {command : Command} {signal : Signal}
    (hsends : Governor.Sends command signal) (hcommand : command.overridesLadder = false) :
    signal.overrides = false := by
  cases hsends with
  | setKillSwitch active => exact hcommand
  | setMode => cases hcommand
  | _ => rfl

theorem Governor.killSwitch_of_step {next : Governor} {command : Command}
    {answer : Except Refusal Reply} (hcommand : command ≠ .setKillSwitch false)
    (hactive : governor.gate.killSwitch = true)
    (hstep : governor.step command = .ok (next, answer)) : next.gate.killSwitch = true := by
  have hsignals : .setKillSwitch false ∉ governor.signals command := by
    intro hrelease
    cases sends_of_mem_signals hrelease
    exact hcommand rfl
  have hrun : (governor.watch.run governor.settings.drift
      (governor.signals command)).1.gate.killSwitch = true :=
    Watch.killSwitch_run_of_active hsignals hactive
  rwa [← watch_of_step hstep] at hrun

/-- What holds of the monitor and the gate after a history. -/
structure GateAgrees (start : Governor) (turns : List Turn) (governor : Governor) : Prop where
  /-- Monitor, gate and published alerts are what the history's signals lead to. -/
  run : start.watch.run start.settings.drift (signalsOf turns) = (governor.watch, transcript turns)
  /-- What is published reaches a recording notifier. -/
  kept : ∀ alerts, start.notifier = .recorder alerts →
    (∀ turn ∈ turns, turn.command ≠ .clearAlerts) →
      governor.notifier = .recorder (alerts ++ published turns)
  sizing : governor.sizing = governor.monitor.stage.multiplier
  mode : governor.gate.mode = governor.monitor.stage.mode
  allowTrading : governor.allowTrading = false ↔ governor.monitor.stage = .paused
  downgrades : governor.monitor.downgrades = (published turns).countP Alert.isEscalation
  killSwitch : governor.gate.killSwitch = true ↔
    Watch.PausedSinceRelease start.settings.drift start.watch (signalsOf turns)
  /-- No command but a release makes the kill switch inactive. -/
  holds : ∀ command next answer, command ≠ .setKillSwitch false →
    governor.gate.killSwitch = true → governor.step command = .ok (next, answer) →
      next.gate.killSwitch = true

/-- Whatever trades, price ticks, resets, releases and prunes there were, in whatever order: size
and mode are those of the stage, every published escalation is counted, and the kill switch is
active exactly when the last rung was reached since the last release. -/
theorem gate_agrees {settings : Settings} {entropy : Seeding} {notifier : Notifier}
    {clock : Instant} (hcreate : Governor.create settings entropy notifier clock = .ok start)
    (hhistory : History start turns governor)
    (hcommands : ∀ turn ∈ turns, turn.command.overridesLadder = false) :
    GateAgrees start turns governor := by
  obtain ⟨window, hwatch⟩ := Governor.watch_create hcreate
  have hrun := hhistory.run_watch
  have hreached : (start.watch.run start.settings.drift (signalsOf turns)).1 = governor.watch :=
    congrArg Prod.fst hrun
  have hoverrides : ∀ signal ∈ signalsOf turns, signal.overrides = false := by
    intro signal hsignal
    obtain ⟨turn, hturn, hsends⟩ := sends_of_mem_signalsOf hsignal
    exact hsends.overrides_eq (hcommands turn hturn)
  have hsettled : governor.watch.Settled := by
    rw [← hreached]
    exact Watch.Settled.run ⟨by rw [hwatch], by rw [hwatch]; rfl⟩ hoverrides
  refine ⟨hrun, fun alerts => hhistory.notifier_eq, hsettled.multiplier, hsettled.mode, ?_, ?_, ?_,
    fun command next answer => Governor.killSwitch_of_step⟩
  · simp [Governor.allowTrading]
  · have hdowngrades := Watch.downgrades_run start.settings.drift start.watch
      (isDivergence_of_notice turns)
    rw [hrun, hwatch, Nat.zero_add] at hdowngrades
    exact hdowngrades
  · rw [← Watch.killSwitch_run (by rw [hwatch]; rfl) _ hoverrides, hreached]
    rfl

/-- Seven losses bring the monitor to the last rung, and five profits one rung back: three
downgrades are counted, and the kill switch stays active. -/
theorem gate_agrees_after_recovery :
    ∃ start turns governor,
      Governor.create { drift := { windowTrades := 5 } } 0 .log ⟨0⟩ = .ok start ∧
      History start turns governor ∧
      (∀ turn ∈ turns, turn.command.overridesLadder = false) ∧
      governor.monitor.stage = .shadow ∧ governor.monitor.downgrades = 3 ∧
      governor.gate.killSwitch = true ∧ GateAgrees start turns governor := by
  let commands : List Command :=
    List.replicate 7 (.reportLive "BTC" (-2.5)) ++ List.replicate 5 (.reportLive "BTC" 1.0)
  obtain ⟨start, turns, governor, hcreate, hhistory, -, hcheck⟩ :=
    Governor.exists_history_of_replays { drift := { windowTrades := 5 } } commands
      (fun turns governor =>
        turns.all (fun turn => turn.command.overridesLadder == false) &&
        governor.monitor.stage == .shadow && governor.monitor.downgrades == 3 &&
        governor.gate.killSwitch) (by decide +kernel)
  simp only [Bool.and_eq_true, List.all_eq_true, beq_iff_eq] at hcheck
  obtain ⟨⟨⟨hcommands, hstage⟩, hdowngrades⟩, hkillSwitch⟩ := hcheck
  exact ⟨start, turns, governor, hcreate, hhistory, hcommands, hstage, hdowngrades, hkillSwitch,
    gate_agrees hcreate hhistory hcommands⟩

end ExposureControl
