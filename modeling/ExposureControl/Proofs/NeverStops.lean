import ExposureControl.Proofs.ClipRange
import ExposureControl.Proofs.CounterBounds
import ExposureControl.Proofs.EnvironmentValidity
import ExposureControl.Proofs.LookBack

/-!
# Settings under which nothing stops the program

Valid settings keep the clip of profits in its domain, but put no upper bound on periods and on the
trade window.  Exactly where these are bounded, a governor can be set up and no command of the years
1970 to 9999 is a fault, apart from counters that are full.
-/

namespace ExposureControl

/-! ## Runs in service -/

namespace Command

def times : Command → List Instant
  | .setClock time => [time]
  | .logPull _ _ _ _ time => [time]
  | .applyReward _ _ _ time => [time]
  | .chargeLedger _ _ time => [time]
  | .prunePulls cutoff => [cutoff]
  | .submit submission => submission.submittedAt.toList
  | .fill _ _ _ filledAt => filledAt.toList
  | .pruneExpired now => [now]
  | _ => []

end Command

/-- Whether commands are given in the years of service: the clock stays in them, and so do the times
that the commands name. -/
def RunsInService : Instant → List Command → Prop
  | clock, [] => clock.InService
  | clock, command :: rest =>
    clock.InService ∧ (∀ time ∈ command.times, time.InService) ∧
      RunsInService (command.clockAfter clock) rest

theorem RunsInService.clock {clock : Instant} {commands : List Command}
    (hservice : RunsInService clock commands) : clock.InService := by
  cases commands with
  | nil => exact hservice
  | cons command rest => exact hservice.1

namespace Governor

variable {start governor : Governor} {commands : List Command}

/-- A run that is a fault gets as far as a command whose step is one. -/
theorem exists_step_of_run_error {fault : Fault} (hrun : start.run commands = .error fault) :
    ∃ before command rest governor answers, commands = before ++ command :: rest ∧
      start.run before = .ok (governor, answers) ∧ governor.step command = .error fault := by
  induction commands generalizing start with
  | nil => cases hrun
  | cons command rest ih =>
    obtain hstep | ⟨⟨next, answer⟩, hstep, hrest⟩ := Fault.bind_eq_error_iff.mp hrun
    · exact ⟨[], command, rest, start, [], rfl, rfl, hstep⟩
    · obtain ⟨before, stopping, later, governor, answers, rfl, hbefore, hstopping⟩ :=
        ih (Fault.eq_error_of_bind hrest)
      refine ⟨command :: before, stopping, later, governor, answer :: answers, rfl, ?_, hstopping⟩
      simp [run, hstep, hbefore, bind, Except.bind, pure, Except.pure]

/-- What is left of a run in service is one from where the first part led. -/
theorem runsInService_of_run {before rest : List Command} {answers : List (Except Refusal Reply)}
    (hrun : start.run before = .ok (governor, answers))
    (hservice : RunsInService start.clock (before ++ rest)) :
    RunsInService governor.clock rest := by
  induction before generalizing start answers with
  | nil =>
    obtain ⟨rfl, -⟩ := Prod.mk.inj (Except.ok.inj hrun)
    exact hservice
  | cons command later ih =>
    simp only [run, Fault.bind_eq_ok_iff, Fault.pure_eq_ok_iff, Prod.mk.injEq, Prod.exists] at hrun
    obtain ⟨next, answer, hstep, _, _, hlater, rfl, -⟩ := hrun
    refine ih hlater ?_
    rw [(course_of_step hstep).clock]
    exact hservice.2.2

/-- A governor can be set up exactly where the age of cost samples is a span and the trade window
has room. -/
theorem create_eq_ok_iff {settings : Settings} {entropy : Seeding} {notifier : Notifier}
    {clock : Instant} :
    (∃ start, create settings entropy notifier clock = .ok start) ↔
      (∃ retention, Span.days settings.costs.retentionDays = .ok retention) ∧
        settings.drift.windowTrades * Drift.Window.tradeBytes ≤ Drift.Window.maxBytes := by
  simp only [create, Costs.Desk.create, Drift.Monitor.create, Fault.bind_eq_ok_iff,
    Fault.pure_eq_ok_iff, Drift.Window.create]
  constructor
  · rintro ⟨_, _, ⟨retention, hretention, -⟩, _, ⟨window, hwindow, -⟩, -⟩
    refine ⟨⟨retention, hretention⟩, ?_⟩
    by_contra hroom
    rw [if_neg hroom] at hwindow
    cases hwindow
  · rintro ⟨⟨retention, hretention⟩, hroom⟩
    exact ⟨_, _, ⟨retention, hretention, rfl⟩, _, ⟨_, if_pos hroom, rfl⟩, rfl⟩

theorem create_books {settings : Settings} {entropy : Seeding} {notifier : Notifier}
    {clock : Instant} (hcreate : create settings entropy notifier clock = .ok start) :
    start.shadow = .empty ∧
      Span.days settings.costs.retentionDays = .ok start.costs.history.retention := by
  simp only [create, Costs.Desk.create, Fault.bind_eq_ok_iff, Fault.pure_eq_ok_iff] at hcreate
  obtain ⟨_, ⟨retention, hretention, rfl⟩, _, -, rfl⟩ := hcreate
  exact ⟨rfl, hretention⟩

end Governor

theorem History.retention_eq {start governor : Governor} {turns : List Turn}
    (hhistory : History start turns governor) :
    governor.costs.history.retention = start.costs.history.retention := by
  induction hhistory with
  | start => rfl
  | turn past step ih => exact (Governor.course_of_step step).retention.trans ih

/-! ## The bounds -/

/-- The bounds that validity leaves out: the trade window can be addressed, and every period can be
looked back from all of the years of service. -/
structure Settings.Bounded (settings : Settings) : Prop where
  window : settings.drift.windowTrades * Drift.Window.tradeBytes ≤ Drift.Window.maxBytes
  costs : Span.DaysInReach settings.costs.retentionDays
  pending : Span.MinutesInReach settings.costs.pendingMinutes
  drift : Span.DaysInReach settings.drift.retentionDays
  shadow : Span.DaysInReach settings.shadow.closedRetentionDays
  pulls : Span.DaysInReach settings.selection.pullRetentionDays

theorem Settings.bounded_iff (settings : Settings) :
    settings.Bounded ↔
      settings.drift.windowTrades * Drift.Window.tradeBytes ≤ Drift.Window.maxBytes ∧
        ∀ retention ∈ settings.retentions, Span.Reaches retention := by
  simp only [retentions, List.forall_mem_cons, List.not_mem_nil, false_imp_iff, implies_true,
    and_true, Span.reaches_days_iff, Span.reaches_minutes_iff]
  constructor
  · rintro ⟨hwindow, hcosts, hpending, hdrift, hshadow, hpulls⟩
    exact ⟨hwindow, hcosts, hpending, hdrift, hshadow, hpulls⟩
  · rintro ⟨hwindow, hcosts, hpending, hdrift, hshadow, hpulls⟩
    exact ⟨hwindow, hcosts, hpending, hdrift, hshadow, hpulls⟩

/-! ## Nothing stops -/

/-- Whether a fault after commands is one that counters explain: it is a full counter, and if all
commands are the governor's own, there are as many of them as a word can count. -/
def Spent (commands : List Command) (fault : Fault) : Prop :=
  fault = .counterOverflow ∧
    ((∀ command ∈ commands, command.operates = true) → Word64.size ≤ commands.length)

/-- Whether nothing but spent counters stops commands in the years of service, nor an overview after
them. -/
structure Governor.GoesOn (start : Governor) : Prop where
  run : ∀ {commands fault}, RunsInService start.clock commands →
    start.run commands = .error fault → Spent commands fault
  overview : ∀ {commands governor answers symbol fault}, RunsInService start.clock commands →
    start.run commands = .ok (governor, answers) → governor.overview symbol = .error fault →
    Spent commands fault

/-- Whether nothing stops the program under settings: a governor can be set up at every time of
service, and then goes on. -/
def NeverStops (settings : Settings) : Prop :=
  ∀ entropy notifier clock, clock.InService →
    ∃ start, Governor.create settings entropy notifier clock = .ok start ∧ start.GoesOn

section

variable {settings : Settings} {entropy : Seeding} {notifier : Notifier} {clock : Instant}
  {start governor : Governor} {turns : List Turn}

/-- Wherever a history leads, the components look back as far as settings say. -/
theorem History.retentions_eq
    (hcreate : Governor.create settings entropy notifier clock = .ok start)
    (hhistory : History start turns governor) : governor.retentions = settings.retentions := by
  obtain ⟨-, hretention⟩ := Governor.create_books hcreate
  rw [Governor.retentions, hhistory.settings_eq, (Governor.create_eq_ok hcreate).1,
    hhistory.retention_eq, ← hretention]
  rfl

/-- Under valid and bounded settings a command in service is stopped by full counters only. -/
theorem full_of_step (hvalid : settings.Valid) (hbounded : settings.Bounded)
    (hcreate : Governor.create settings entropy notifier clock = .ok start)
    (hhistory : History start turns governor) {command : Command} {rest : List Command}
    (hservice : RunsInService governor.clock (command :: rest)) {fault : Fault}
    (hstep : governor.step command = .error fault) :
    fault = .counterOverflow ∧ (governor.registry.Full ∨ governor.shadow.book.Full) := by
  have hsettings := hhistory.settings_eq.trans (Governor.create_eq_ok hcreate).1
  obtain ⟨hclock, htimes, hrest⟩ := hservice
  cases Governor.stoppedBy_of_step hstep with
  | @clock span hcommand hmove =>
    subst hcommand
    have hmoved : governor.clock.after span = .ok ⟨governor.clock.micros + span.micros⟩ :=
      (Instant.checked_eq_ok_iff _ _).mpr ⟨rfl, hrest.clock.representable⟩
    rw [hmoved] at hmove
    cases hmove
  | @clip profit slippage fees hshape =>
    obtain ⟨outcome, houtcome⟩ := Outcome.exists_ofTrade hvalid profit slippage fees
    rw [hsettings, houtcome] at hshape
    cases hshape
  | @cutoff now retention hnow hretention hcutoff =>
    have hnowService : now.InService := by
      obtain rfl | rfl := hnow
      · exact hclock
      · exact htimes now List.mem_cons_self
    rw [hhistory.retentions_eq hcreate] at hretention
    obtain ⟨cutoff, hreached⟩ :=
      (settings.bounded_iff.mp hbounded).2 retention hretention now hnowService
    rw [hreached] at hcutoff
    cases hcutoff
  | counter hfault hfull => exact ⟨hfault, hfull⟩

theorem goesOn_of_bounded (hvalid : settings.Valid) (hbounded : settings.Bounded)
    (hcreate : Governor.create settings entropy notifier clock = .ok start) : start.GoesOn := by
  obtain ⟨-, -, harena⟩ := Governor.create_eq_ok hcreate
  obtain ⟨hshadow, -⟩ := Governor.create_books hcreate
  have hlength : ∀ {commands : List Command} {turns : List Turn},
      (turns.map Turn.command).reverse = commands → turns.length = commands.length := by
    rintro _ turns rfl
    simp
  constructor
  · intro commands fault hservice hrun
    obtain ⟨before, command, rest, governor, answers, rfl, hbefore, hstep⟩ :=
      Governor.exists_step_of_run_error hrun
    obtain ⟨turns, hhistory, hcommands, -⟩ :=
      (run_eq_ok_iff start governor before answers).mp hbefore
    obtain ⟨hfault, hfull⟩ := full_of_step hvalid hbounded hcreate hhistory
      (Governor.runsInService_of_run hbefore hservice) hstep
    refine ⟨hfault, fun hoperates => ?_⟩
    have hsize := hhistory.length_of_full harena hshadow (fun turn hturn =>
      hoperates _ (List.mem_append_left _ (Turn.command_mem hcommands hturn))) hfull
    rw [hlength hcommands] at hsize
    simp only [List.length_append, List.length_cons]
    omega
  · intro commands governor answers symbol fault hservice hrun hoverview
    obtain ⟨turns, hhistory, hcommands, -⟩ :=
      (run_eq_ok_iff start governor commands answers).mp hrun
    refine ⟨(Governor.sum_of_overview hoverview).1, fun hoperates => ?_⟩
    rw [← hlength hcommands]
    exact hhistory.length_of_overview harena
      (fun turn hturn => hoperates _ (Turn.command_mem hcommands hturn)) hoverview

end

/-- Nothing stops the program under valid settings exactly where they are bounded. -/
theorem neverStops_iff_bounded {settings : Settings} (hvalid : settings.Valid) :
    NeverStops settings ↔ settings.Bounded := by
  constructor
  · intro hnever
    rw [Settings.bounded_iff]
    have hperiods : ∀ now : Instant, now.InService → ∀ retention ∈ settings.retentions,
        ∃ cutoff, retention >>= now.before = .ok cutoff := by
      intro now hservice
      obtain ⟨start, hcreate, hgoes⟩ := hnever 0 .log .firstOfService (by decide)
      cases hprune : start.pruneExpired now with
      | ok done =>
        have hlookBack := Governor.lookBack_of_pruneExpired hprune
        rwa [History.start.retentions_eq hcreate] at hlookBack
      | error fault =>
        have hclock := (Governor.create_eq_ok hcreate).2.1
        have hrun : start.run [.pruneExpired now] = .error fault := by
          simp [Governor.run, Governor.step, hprune, bind, Except.bind]
        have hruns : RunsInService start.clock [.pruneExpired now] := by
          rw [hclock]
          have hclock : Instant.firstOfService.InService := by decide
          exact ⟨hclock, List.forall_mem_singleton.mpr hservice, hclock⟩
        have hsize : Word64.size ≤ 1 :=
          (hgoes.run hruns hrun).2 (List.forall_mem_singleton.mpr rfl)
        exact absurd hsize (by decide)
    refine ⟨?_, fun retention hretention now hservice => hperiods now hservice retention hretention⟩
    obtain ⟨start, hcreate, -⟩ := hnever 0 .log .firstOfService (by decide)
    exact (Governor.create_eq_ok_iff.mp ⟨start, hcreate⟩).2
  · intro hbounded entropy notifier clock hservice
    obtain ⟨_, hreached⟩ := (Span.reaches_days_iff _).mpr hbounded.costs clock hservice
    obtain ⟨retention, hretention, -⟩ := Fault.bind_eq_ok_iff.mp hreached
    obtain ⟨start, hcreate⟩ :=
      Governor.create_eq_ok_iff.mpr ⟨⟨retention, hretention⟩, hbounded.window⟩
    exact ⟨start, hcreate, goesOn_of_bounded hvalid hbounded hcreate⟩

/-- The defaults are valid and bounded, so that nothing stops the program under them. -/
theorem neverStops_default : ({} : Settings).Valid ∧ NeverStops {} := by
  refine ⟨Settings.valid_default, (neverStops_iff_bounded Settings.valid_default).mpr ?_⟩
  exact ⟨by decide, by decide, by decide, by decide, by decide, by decide⟩

/-- Settings whose cost samples are to be kept for some 292 million years are valid, but no governor
can be set up with them. -/
theorem create_stops_of_long_retention :
    ({ costs := { retentionDays := 106751991168 } } : Settings).Valid ∧
      Governor.create { costs := { retentionDays := 106751991168 } } 0 .log ⟨0⟩ =
        .error .spanTooLong :=
  ⟨by decide +kernel, rfl⟩

end ExposureControl
