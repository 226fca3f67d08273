import ExposureControl.Proofs.DriftGate

/-!
# Alerts along the ladder

What the watch does in public is a path on the ladder.  Each move starts where the last one ended,
or on the first rung after a reset, and goes one rung up or back; the halt is announced right after
each move to the last rung and nowhere else.  So whoever receives the alerts knows the stage.
-/

namespace ExposureControl

def Alert.isMove : Alert → Bool
  | .escalated .. => true
  | .recovered .. => true
  | _ => false

namespace Drift

/-! ## Reading the path -/

namespace Entry

/-- The rung after an entry, for a reader who knows the rung before it. -/
def rungAfter (rung : Stage) : Entry → Stage
  | .reset => .normal
  | .alert (.escalated _ target _) => target
  | .alert (.recovered _ target) => target
  | .alert _ => rung

/-- Whether an entry is a move to the last rung. -/
def pauses : Entry → Bool
  | .alert (.escalated _ target _) => target = .paused
  | _ => false

end Entry

/-- The rung that a reader of the whole path knows: the target of the last move since the last
reset, or else the first rung. -/
def rungOf (entries : List Entry) : Stage := entries.foldl Entry.rungAfter .normal

/-- Whether the path breaks off at a move to the last rung. -/
def haltDue (entries : List Entry) : Bool := entries.getLast?.any Entry.pauses

/-- Whether an entry may come after earlier ones: a halt right after a move to the last rung, and
everything else anywhere else; a move from where the path has led to a neighbouring rung. -/
def Entry.Follows (settings : Settings.Drift) (earlier : List Entry) : Entry → Prop
  | .alert (.halted reason) =>
    ∃ before source breaches, earlier = before ++ [.alert (.escalated source .paused breaches)] ∧
      reason = Monitor.haltReason source .paused
  | .alert (.escalated source target breaches) =>
    haltDue earlier = false ∧ source = rungOf earlier ∧ source ≠ .paused ∧
      target = source.escalated ∧ breaches.any = true ∧ settings.enabled = true ∧
      settings.autoDowngrade = true
  | .alert (.recovered source target) =>
    haltDue earlier = false ∧ source = rungOf earlier ∧ source ≠ .normal ∧
      target = source.recovered
  | _ => haltDue earlier = false

/-- Whether entries are a path on the ladder to a stage. -/
structure Path (settings : Settings.Drift) (entries : List Entry) (stage : Stage) : Prop where
  follows : ∀ earlier entry later, entries = earlier ++ entry :: later →
    entry.Follows settings earlier
  complete : haltDue entries = false
  rung : rungOf entries = stage

variable {settings : Settings.Drift} {entries : List Entry} {stage : Stage}

@[simp]
theorem rungOf_concat (entries : List Entry) (entry : Entry) :
    rungOf (entries ++ [entry]) = entry.rungAfter (rungOf entries) := by
  simp [rungOf]

@[simp]
theorem haltDue_concat (entries : List Entry) (entry : Entry) :
    haltDue (entries ++ [entry]) = entry.pauses := by
  simp [haltDue]

/-- Each entry of a longer path follows on those before it. -/
theorem follows_concat {last : Entry}
    (hfollows : ∀ earlier entry later, entries = earlier ++ entry :: later →
      entry.Follows settings earlier) (hlast : last.Follows settings entries) :
    ∀ earlier entry later, entries ++ [last] = earlier ++ entry :: later →
      entry.Follows settings earlier := by
  intro earlier entry later hsplit
  obtain ⟨rfl, rfl, rfl⟩ | ⟨middle, rfl, hwithin⟩ := concat_eq_append_cons_iff.mp hsplit
  · exact hlast
  · exact hfollows earlier entry middle hwithin

namespace Path

theorem start : Path settings [] .normal := by
  refine ⟨fun earlier entry later hsplit => ?_, rfl, rfl⟩
  cases earlier <;> cases hsplit

theorem concat (hpath : Path settings entries stage) {last : Entry}
    (hlast : last.Follows settings entries) (hpauses : last.pauses = false) :
    Path settings (entries ++ [last]) (last.rungAfter stage) :=
  ⟨follows_concat hpath.follows hlast, by rw [haltDue_concat, hpauses],
    by rw [rungOf_concat, hpath.rung]⟩

theorem evaluation {before after : Watch} {alerts : List Alert}
    (hpath : Path settings entries before.monitor.stage)
    (hcases : Evaluation settings before after alerts) :
    Path settings (entries ++ alerts.map .alert) after.monitor.stage := by
  have hrung := hpath.rung.symm
  cases hcases with
  | stays hstage =>
    rw [List.map_nil, List.append_nil, hstage]
    exact hpath
  | @climbs breaches henabled hauto hbreaches hroom hstage =>
    have hclimb : (Entry.alert (.escalated before.monitor.stage after.monitor.stage
        breaches)).Follows settings entries :=
      ⟨hpath.complete, hrung, hroom, hstage, hbreaches, henabled, hauto⟩
    by_cases hpaused : after.monitor.stage = .paused
    · rw [hpaused] at hclimb ⊢
      rw [if_pos rfl, List.map_cons, List.map_singleton, List.append_cons]
      refine ⟨follows_concat (follows_concat hpath.follows hclimb)
        ⟨entries, before.monitor.stage, breaches, rfl, rfl⟩, ?_, ?_⟩
      · rw [haltDue_concat]
        rfl
      · rw [rungOf_concat, rungOf_concat]
        rfl
    · rw [if_neg hpaused, List.map_singleton]
      exact hpath.concat hclimb (decide_eq_false hpaused)
  | recovers hroom hstage =>
    exact hpath.concat ⟨hpath.complete, hrung, hroom, hstage⟩ rfl

theorem receive {watch : Watch} (hpath : Path settings entries watch.monitor.stage)
    (signal : Signal) (hnotice : ∀ alert, signal = .notice alert → alert.isDivergence = true) :
    Path settings (entries ++ (watch.receive settings signal).2)
      (watch.receive settings signal).1.monitor.stage := by
  cases signal with
  | notice alert =>
    cases alert with
    | divergence => exact hpath.concat hpath.complete rfl
    | escalated | recovered | halted => cases hnotice _ rfl
  | reset => exact hpath.concat hpath.complete rfl
  | setKillSwitch | setMode | prune =>
    rw [Watch.receive, List.append_nil]
    exact hpath
  | trade now track result =>
    obtain ⟨alerts, hentries, hcases⟩ := watch.receive_trade settings now track result
    rw [hentries]
    exact hpath.evaluation hcases

theorem run {watch : Watch} (hpath : Path settings entries watch.monitor.stage)
    {signals : List Signal}
    (hnotices : ∀ alert, .notice alert ∈ signals → alert.isDivergence = true) :
    Path settings (entries ++ (watch.run settings signals).2)
      (watch.run settings signals).1.monitor.stage := by
  induction signals generalizing watch entries with
  | nil =>
    rw [Watch.run_nil, List.append_nil]
    exact hpath
  | cons signal rest ih =>
    have hfirst := hpath.receive signal
      fun alert hsignal => hnotices alert (hsignal ▸ List.mem_cons_self)
    have hrest := ih hfirst fun alert hsignal => hnotices alert (List.mem_cons_of_mem _ hsignal)
    rw [List.append_assoc] at hrest
    exact hrest

theorem halted_next (hpath : Path settings entries stage) {earlier later : List Entry}
    {source : Stage} {breaches : Breaches}
    (hsplit : entries = earlier ++ .alert (.escalated source .paused breaches) :: later) :
    ∃ rest, later = .alert (.halted (Monitor.haltReason source .paused)) :: rest := by
  cases later with
  | nil =>
    have hcomplete := hpath.complete
    rw [hsplit, haltDue_concat] at hcomplete
    cases hcomplete
  | cons next rest =>
    rw [List.append_cons] at hsplit
    have hnext := hpath.follows _ next rest hsplit
    have hdue : haltDue (earlier ++ [.alert (.escalated source .paused breaches)]) = true :=
      haltDue_concat _ _
    cases next with
    | reset => cases hdue.symm.trans hnext
    | alert alert =>
      cases alert with
      | divergence => cases hdue.symm.trans hnext
      | escalated => cases hdue.symm.trans hnext.1
      | recovered => cases hdue.symm.trans hnext.1
      | halted reason =>
        obtain ⟨before, origin, reasons, hsame, rfl⟩ := hnext
        obtain ⟨-, hlast⟩ := List.append_inj' hsame rfl
        simp only [List.cons.injEq, Entry.alert.injEq, Alert.escalated.injEq, and_true] at hlast
        rw [hlast.1]
        exact ⟨rest, rfl⟩

end Path

end Drift

open Drift (Watch Signal Entry Stage)

theorem Drift.Evaluation.countP_isMove_le {settings : Settings.Drift} {before after : Watch}
    {alerts : List Alert} (hcases : Drift.Evaluation settings before after alerts) :
    alerts.countP Alert.isMove ≤ 1 := by
  cases hcases with
  | stays => exact Nat.zero_le 1
  | climbs =>
    rw [List.countP_cons_of_pos rfl]
    split <;> exact Nat.le_refl 1
  | recovers => exact Nat.le_refl 1

/-! ## The alerts of a history -/

variable {settings : Settings} {start governor : Governor} {turns : List Turn}

/-- What holds of the alerts that a history publishes and of the resets between them. -/
structure AlertsAlongLadder (settings : Settings.Drift) (start : Governor) (turns : List Turn)
    (governor : Governor) : Prop where
  /-- The transcript is what the history's signals make the watch do in public. -/
  run : start.watch.run settings (signalsOf turns) = (governor.watch, transcript turns)
  /-- The alerts of the transcript reach a recording notifier. -/
  kept : ∀ alerts, start.notifier = .recorder alerts →
    (∀ turn ∈ turns, turn.command ≠ .clearAlerts) →
      governor.notifier = .recorder (alerts ++ published turns)
  /-- The stage is the target of the last move since the last reset, or else the first rung. -/
  stage : governor.monitor.stage = Drift.rungOf (transcript turns)
  /-- An escalation starts where the path has led, goes one rung up, and has a reason. -/
  escalations : ∀ earlier source target breaches later,
    transcript turns = earlier ++ .alert (.escalated source target breaches) :: later →
      source = Drift.rungOf earlier ∧ source ≠ .paused ∧ target = source.escalated ∧
        breaches.any = true ∧ settings.enabled = true ∧ settings.autoDowngrade = true
  /-- A recovery starts where the path has led, and goes one rung back. -/
  recoveries : ∀ earlier source target later,
    transcript turns = earlier ++ .alert (.recovered source target) :: later →
      source = Drift.rungOf earlier ∧ source ≠ .normal ∧ target = source.recovered
  /-- A trade publishes at most one move. -/
  single : ∀ earlier now track result later,
    signalsOf turns = earlier ++ .trade now track result :: later →
      (Drift.alertsOf ((start.watch.run settings earlier).1.receive settings
        (.trade now track result)).2).countP Alert.isMove ≤ 1
  /-- The halt is announced right after a move to the last rung. -/
  halts : ∀ earlier source breaches later,
    transcript turns = earlier ++ .alert (.escalated source .paused breaches) :: later →
      ∃ rest, later = .alert (.halted (Drift.Monitor.haltReason source .paused)) :: rest
  /-- The halt is announced nowhere else. -/
  onlyHalts : ∀ earlier reason later,
    transcript turns = earlier ++ .alert (.halted reason) :: later →
      ∃ before source breaches, earlier = before ++ [.alert (.escalated source .paused breaches)]

/-- Whatever trades, price ticks, resets and prunes there were, in whatever order, the published
alerts are a path on the ladder that leads to the current stage. -/
theorem alerts_along_ladder {entropy : Seeding} {notifier : Notifier} {clock : Instant}
    (hcreate : Governor.create settings entropy notifier clock = .ok start)
    (hhistory : History start turns governor) :
    AlertsAlongLadder settings.drift start turns governor := by
  obtain ⟨hsettings, -, -⟩ := Governor.create_eq_ok hcreate
  obtain ⟨window, hwatch⟩ := Governor.watch_create hcreate
  have hrun := hhistory.run_watch
  rw [hsettings] at hrun
  have hstart : Drift.Path settings.drift [] start.watch.monitor.stage := by
    rw [hwatch]
    exact .start
  have hpath := hstart.run (isDivergence_of_notice turns)
  rw [hrun, List.nil_append] at hpath
  refine ⟨hrun, fun alerts => hhistory.notifier_eq, hpath.rung.symm, ?_, ?_, ?_, ?_, ?_⟩
  · intro earlier source target breaches later hsplit
    exact (hpath.follows earlier _ later hsplit).2
  · intro earlier source target later hsplit
    exact (hpath.follows earlier _ later hsplit).2
  · intro earlier now track result later _
    obtain ⟨alerts, hentries, hcases⟩ :=
      (start.watch.run settings.drift earlier).1.receive_trade settings.drift now track result
    rw [hentries, Drift.alertsOf_map_alert]
    exact hcases.countP_isMove_le
  · exact fun earlier source breaches later => hpath.halted_next
  · intro earlier reason later hsplit
    obtain ⟨before, source, breaches, hbefore, -⟩ := hpath.follows earlier _ later hsplit
    exact ⟨before, source, breaches, hbefore⟩

/-- Losses to the last rung, profits for one rung back, a reset, and losses again: the path has six
alerts, five of them moves, and ends one rung above the first. -/
theorem alerts_along_ladder_with_reset :
    ∃ start turns governor,
      Governor.create { drift := { windowTrades := 5 } } 0 .log ⟨0⟩ = .ok start ∧
      History start turns governor ∧ (published turns).length = 6 ∧
      (published turns).countP Alert.isMove = 5 ∧ governor.monitor.stage = .reduced ∧
      AlertsAlongLadder { windowTrades := 5 } start turns governor := by
  let commands : List Command :=
    List.replicate 7 (.reportLive "BTC" (-2.5)) ++ List.replicate 5 (.reportLive "BTC" 1.0) ++
      .resetMonitor :: List.replicate 5 (.reportLive "BTC" (-2.5))
  obtain ⟨start, turns, governor, hcreate, hhistory, -, hcheck⟩ :=
    Governor.exists_history_of_replays { drift := { windowTrades := 5 } } commands
      (fun turns governor =>
        (published turns).length == 6 && (published turns).countP Alert.isMove == 5 &&
        governor.monitor.stage == .reduced) (by decide +kernel)
  simp only [Bool.and_eq_true, beq_iff_eq] at hcheck
  obtain ⟨⟨hlength, hmoves⟩, hstage⟩ := hcheck
  exact ⟨start, turns, governor, hcreate, hhistory, hlength, hmoves, hstage,
    alerts_along_ladder hcreate hhistory⟩

end ExposureControl
