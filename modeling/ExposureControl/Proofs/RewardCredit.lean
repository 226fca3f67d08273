import ExposureControl.Proofs.ArmCounters

/-!
# Rewards are credited once

Each decision is drawn for one selection, and its reward goes to the arm of that selection, once.
What was reported stays as it is, whatever is reported later.
-/

namespace ExposureControl

variable {turns : List Turn} {turn : Turn} {start governor : Governor}

/-! ## Both invariants along histories -/

theorem Turn.restoresFaithfully_of_not_bypasses (hcommand : turn.command.bypasses = false) :
    turn.RestoresFaithfully := by
  intro arm hrestore
  rw [hrestore] at hcommand
  cases hcommand

theorem arm_of_pull (hrecorded : Recorded turns governor.arena)
    (hcounted : Counted turns governor.arena) (symbol : String) {pull : Pull}
    (hpull : pull ∈ governor.registry.historyOf symbol) :
    ∃ arm, governor.registry.arms.find? pull.arm = some arm := by
  obtain ⟨selection, hselection, -, harm⟩ := hrecorded.selected symbol pull hpull
  rw [← harm]
  exact hcounted.arms selection hselection

namespace History

/-- A step that bypasses nothing is of one of the five kinds, after a history that kept pulls and
counters together. -/
theorem creditStep_next (past : History start turns governor) (hempty : start.arena = .empty)
    (hpast : ∀ turn ∈ turns, turn.command.bypasses = false)
    (hrecorded : Recorded turns governor.arena) (hcounted : Counted turns governor.arena)
    {command : Command} {answer : Except Refusal Reply} {next : Governor}
    (hstep : governor.step command = .ok (next, answer)) (hcommand : command.bypasses = false) :
    CreditStep ⟨governor, command, answer, next⟩ := by
  have hsound := past.sound hempty fun turn hturn =>
    Turn.restoresFaithfully_of_not_bypasses (hpast turn hturn)
  -- the pulls so far have their arms, so that a report cannot fail halfway
  exact creditStep_of_step hstep hcommand hsound fun symbol pull hpull =>
    arm_of_pull hrecorded hcounted symbol hpull

/-- A history that bypasses nothing keeps pulls, counters and turns together. -/
theorem recorded_counted (hhistory : History start turns governor)
    (hempty : start.arena = .empty) (hcommands : ∀ turn ∈ turns, turn.command.bypasses = false) :
    Recorded turns governor.arena ∧ Counted turns governor.arena := by
  induction hhistory with
  | start =>
    rw [hempty]
    exact ⟨.empty, .empty⟩
  | @turn turns before after command answer past step ih =>
    obtain ⟨hcommand, hpast⟩ := List.forall_mem_cons.mp hcommands
    obtain ⟨hrecorded, hcounted⟩ := ih hpast
    have hstep := past.creditStep_next hempty hpast hrecorded hcounted step hcommand
    exact ⟨Recorded.step hrecorded hstep, Counted.step hcounted hrecorded hstep⟩

/-- The turns of such a history are of the five kinds. -/
theorem creditStep (hhistory : History start turns governor) (hempty : start.arena = .empty)
    (hcommands : ∀ turn ∈ turns, turn.command.bypasses = false) :
    ∀ turn ∈ turns, CreditStep turn := by
  induction hhistory with
  | start => exact fun _ => nofun
  | @turn turns before after command answer past step ih =>
    obtain ⟨hcommand, hpast⟩ := List.forall_mem_cons.mp hcommands
    obtain ⟨hrecorded, hcounted⟩ := past.recorded_counted hempty hpast
    exact List.forall_mem_cons.mpr
      ⟨past.creditStep_next hempty hpast hrecorded hcounted step hcommand, ih hpast⟩

end History

/-! ## What feeds an arm -/

/-- Whether a turn changes the statistics of an arm because of what it reports for a decision. -/
def Turn.Feeds (decision : DecisionId) (id : ObjectId) (turn : Turn) : Prop :=
  (∃ reported, turn.command.report? turn.before.settings = some (decision, reported)) ∧
    ∃ arm, turn.before.registry.arms.find? id = some arm ∧
      (turn.after.registry.arms.find? id).map Arm.stats ≠ some arm.stats

/-- Whether a turn records a reported reward, for a decision not resolved so far, in the
statistics of an arm. -/
def Turn.Credits (pull : Pull) (reported : Outcome) (turn : Turn) : Prop :=
  turn.command.report? turn.before.settings = some (pull.decision, reported) ∧
    turn.before.registry.findPull? pull.decision = some pull ∧ pull.resolved = false ∧
    ∃ arm stats, turn.before.registry.arms.find? pull.arm = some arm ∧
      arm.stats.recordReward reported.reward turn.before.settings.selection.decay.halfLife
        turn.before.clock = .ok stats ∧
      (turn.after.registry.arms.find? pull.arm).map Arm.stats = some stats

/-- A report resets nothing, so that it changes no statistics if resets are all that would. -/
theorem Turn.KeepsStats.stats_of_report (hstats : turn.KeepsStats) {decision : DecisionId}
    {reported : Outcome}
    (hreport : turn.command.report? turn.before.settings = some (decision, reported))
    {id : ObjectId} {arm : Arm} (hfound : turn.before.registry.arms.find? id = some arm) :
    (turn.after.registry.arms.find? id).map Arm.stats = some arm.stats := by
  have hresets : turn.resets arm.contest = false := by
    obtain ⟨before, command, answer, after⟩ := turn
    cases command with
    | resetArms => cases hreport
    | _ => rfl
  obtain ⟨kept, hkept, -, hsame⟩ := hstats.known hfound
  rw [hkept, Option.map_some, hsame, hresets]
  rfl

namespace CreditStep

theorem credits_of_feeds (hstep : CreditStep turn) {decision : DecisionId} {id : ObjectId}
    (hfeeds : turn.Feeds decision id) :
    ∃ pull reported, pull.decision = decision ∧ pull.arm = id ∧ turn.Credits pull reported ∧
      turn.accepted?.map Pull.decision = some decision := by
  obtain ⟨⟨reported, hreport⟩, arm, hfound, hchanged⟩ := hfeeds
  cases hstep with
  | kept _ _ _ _ hstats => exact absurd (hstats.stats_of_report hreport hfound) hchanged
  | pruned _ _ _ _ hstats => exact absurd (hstats.stats_of_report hreport hfound) hchanged
  | selected _ _ _ _ hselected =>
    obtain ⟨before, command, answer, after⟩ := turn
    cases command with
    | select => cases hreport
    | _ => cases hselected
  | again _ _ _ _ _ _ _ _ _ _ harena =>
    have hregistry : turn.after.registry = turn.before.registry := congrArg Arena.registry harena
    rw [hregistry, hfound] at hchanged
    exact absurd rfl hchanged
  | credited symbol pull first outcome fed stats _ haccepted hfirst husable hlocated hresolved
      hfed hstats harena =>
    obtain ⟨rfl, rfl⟩ := Prod.mk.inj (Option.some.inj (hfirst.symm.trans hreport))
    have harms : turn.after.registry.arms = turn.before.registry.arms.insert pull.arm
        { fed with stats, updatedAt := turn.before.clock } :=
      congrArg (fun arena => arena.registry.arms) harena
    -- the arm of the pull is the only one whose entry the report replaces
    have hid : pull.arm = id := by
      refine Classical.byContradiction fun hother => hchanged ?_
      rw [harms, Table.find?_insert_of_ne (Ne.symm hother), hfound]
      rfl
    rw [(Outcome.usable?_spec husable).2] at hstats
    refine ⟨pull, first, rfl, hid, ⟨hreport, congrArg (Option.map Prod.snd) hlocated, hresolved,
      fed, stats, hfed, hstats, ?_⟩, by rw [haccepted]; rfl⟩
    rw [harms, Table.find?_insert_self]
    rfl

theorem finite_of_accepted (hstep : CreditStep turn) {pull : Pull}
    (haccepted : turn.accepted? = some pull) :
    ∃ reported, turn.command.report? turn.before.settings = some (pull.decision, reported) ∧
      reported.reward.isFinite = true := by
  have hfinite {reported outcome : Outcome} (husable : reported.usable? = some outcome) :
      reported.reward.isFinite = true := by
    rw [← Bool.not_eq_false, ← Outcome.usable?_eq_none_iff, husable]
    exact Option.some_ne_none outcome
  cases hstep with
  | kept _ hnone => cases hnone.symm.trans haccepted
  | pruned _ _ hnone => cases hnone.symm.trans haccepted
  | selected _ _ _ _ _ hnone => cases hnone.symm.trans haccepted
  | again _ found reported _ _ hfound hreport husable =>
    obtain rfl := Option.some.inj (hfound.symm.trans haccepted)
    exact ⟨reported, hreport, hfinite husable⟩
  | credited _ found reported _ _ _ _ hfound hreport husable =>
    obtain rfl := Option.some.inj (hfound.symm.trans haccepted)
    exact ⟨reported, hreport, hfinite husable⟩

/-- A resolved pull stays on record as it is, unless the turn drops it. -/
theorem mem_historyOf_of_resolved (hstep : CreditStep turn)
    (hfiled : turn.before.registry.Filed) {symbol : String} {pull : Pull}
    (hpull : pull ∈ turn.before.registry.historyOf symbol) (hresolved : pull.resolved = true) :
    pull ∈ turn.after.registry.historyOf symbol ∨
      ∃ cutoff, turn.command.pullCutoff? turn.before.settings = some cutoff ∧
        pull.loggedAt < cutoff := by
  have hregistry {arena : Arena} (harena : turn.after.arena = arena) :
      turn.after.registry = arena.registry := congrArg Arena.registry harena
  cases hstep with
  | kept _ _ _ hpulls =>
    rw [hpulls.historyOf]
    exact .inl hpull
  | pruned cutoff _ _ hcutoff _ harena =>
    by_cases hold : pull.loggedAt < cutoff
    · exact .inr ⟨cutoff, hcutoff, hold⟩
    · rw [hregistry harena]
      exact .inl ((Registry.mem_historyOf_prunePulls cutoff _ symbol pull).mpr ⟨hpull, hold⟩)
  | selected generator arm context _ _ _ harena =>
    rw [hregistry harena]
    exact .inl ((Registry.mem_historyOf_withPull turn.before.registry
      (arm.pulled turn.before.settings.selection.decay.halfLife turn.before.clock) _ symbol
      pull).mpr (.inl hpull))
  | again _ _ _ _ _ _ _ _ _ _ harena =>
    rw [hregistry harena]
    exact .inl hpull
  | credited other first _ outcome _ _ _ _ _ _ hlocated hopen _ _ harena =>
    obtain ⟨hfirst, -⟩ := (hfiled.locate?_eq_some_iff first.decision).mp hlocated
    rw [hregistry harena]
    -- the pull that was credited had no outcome yet, so it is not this one
    refine .inl ((Registry.mem_historyOf_withOutcome hfiled hfirst
      { first with outcome := some outcome } rfl symbol pull).mpr (.inr ⟨hpull, ?_⟩))
    intro hdecision
    obtain ⟨-, rfl⟩ := hfiled.unique hfirst hpull hdecision
    cases hopen.symm.trans hresolved

end CreditStep

/-! ## Resolved pulls -/

/-- What the outcome of a resolved decision does to the arena: nothing. -/
theorem Arena.recordOutcome_of_resolved {arena : Arena} {decision : DecisionId} {pull : Pull}
    (hfound : arena.registry.findPull? decision = some pull) (hresolved : pull.resolved = true)
    (settings : Settings.Selection) (now : Instant) (reported : Outcome) :
    arena.recordOutcome settings now decision reported =
      .ok (arena, .ok (if reported.reward.isFinite then some pull else none)) := by
  cases husable : reported.usable? with
  | none =>
    rw [recordOutcome, husable, (Outcome.usable?_eq_none_iff reported).mp husable]
    rfl
  | some usable =>
    obtain ⟨⟨symbol, found⟩, hlocated, rfl⟩ := Option.map_eq_some_iff.mp hfound
    have happly : arena.registry.applyReward decision usable settings.decay.halfLife now =
        .ok (arena.registry, .ok found) := by
      rw [Registry.applyReward, hlocated]
      exact if_pos hresolved
    have hreward := (Outcome.usable?_spec husable).1.reward
    rw [(Outcome.usable?_spec husable).2] at hreward
    simp only [recordOutcome, husable, tryRegistry, happly, hreward, if_true]
    rfl

/-- A report for a resolved decision changes nothing, and is answered with the pull as it is on
record unless the reported reward is not finite. -/
theorem Governor.step_of_resolved {command : Command} {decision : DecisionId}
    {reported : Outcome} {pull : Pull}
    (hfound : governor.registry.findPull? decision = some pull) (hresolved : pull.resolved = true)
    (hreport : command.report? governor.settings = some (decision, reported)) :
    governor.step command =
      .ok (governor, .ok (.pull (if reported.reward.isFinite then some pull else none))) := by
  have hrecord : governor.recordOutcome decision reported =
      .ok (governor, .ok (if reported.reward.isFinite then some pull else none)) :=
    tryArena_eq_ok_iff.mpr ⟨governor.arena,
      Arena.recordOutcome_of_resolved hfound hresolved _ _ _, rfl⟩
  exact step_of_report hreport hrecord

/-- A resolved pull stays on record as it is until it is dropped. -/
theorem History.mem_historyOf_of_resolved {middle : Governor} {past later : List Turn}
    (hlater : History middle later governor) (hpast : History start past middle)
    (hempty : start.arena = .empty)
    (hcommands : ∀ turn ∈ later ++ past, turn.command.bypasses = false) {symbol : String}
    {pull : Pull} (hpull : pull ∈ middle.registry.historyOf symbol)
    (hresolved : pull.resolved = true) :
    pull ∈ governor.registry.historyOf symbol ∨
      ∃ turn ∈ later, ∃ cutoff, turn.command.pullCutoff? turn.before.settings = some cutoff ∧
        pull.loggedAt < cutoff := by
  induction hlater with
  | start => exact .inl hpull
  | @turn turns before after command answer hmiddle step ih =>
    obtain ⟨-, hearlier⟩ := List.forall_mem_cons.mp hcommands
    obtain hkept | ⟨turn, hturn, hpruned⟩ := ih hearlier
    · have hstep := ((hmiddle.turn step).append hpast).creditStep hempty hcommands _
        List.mem_cons_self
      obtain ⟨hrecorded, -⟩ := (hmiddle.append hpast).recorded_counted hempty hearlier
      obtain hafter | hpruned := hstep.mem_historyOf_of_resolved hrecorded.filed hkept hresolved
      · exact .inl hafter
      · exact .inr ⟨_, List.mem_cons_self, hpruned⟩
    · exact .inr ⟨turn, List.mem_cons_of_mem _ hturn, hpruned⟩

/-! ## Every reward once -/

/-- What holds of rewards, counters and pulls after a history. -/
structure CreditsOnce (start : Governor) (turns : List Turn) (governor : Governor) : Prop where
  /-- Every selection has a decision of its own. -/
  distinct : ((selections turns).map Selection.decision).Nodup
  /-- An arm is fed the reported reward, for a decision that was selected for that arm before and
  has fed no arm so far. -/
  feeds : ∀ later turn past decision id, turns = later ++ turn :: past →
    turn.Feeds decision id →
      (∃ pull reported, pull.decision = decision ∧ pull.arm = id ∧
        turn.Credits pull reported) ∧
      (∃ selection ∈ selections past, selection.decision = decision ∧ selection.arm = id) ∧
      ∀ earlier ∈ past, ∀ other, ¬ earlier.Feeds decision other
  /-- Only reports of finite rewards are accepted. -/
  accepts : ∀ turn ∈ turns, ∀ pull, turn.accepted? = some pull →
    ∃ reported, turn.command.report? turn.before.settings = some (pull.decision, reported) ∧
      reported.reward.isFinite = true
  /-- Arms count their selections and their credited decisions since the last reset. -/
  counts : ∀ id arm, governor.registry.arms.find? id = some arm →
    arm.stats.pulls = selectionsSince arm.contest id turns ∧
      arm.stats.observations = creditsSince arm.contest id turns
  /-- A later report changes nothing.  Its answer is the pull on record if its reward is finite. -/
  repeats : ∀ command decision reported pull,
    governor.registry.findPull? decision = some pull → pull.resolved = true →
    command.report? governor.settings = some (decision, reported) →
      governor.step command =
        .ok (governor, .ok (.pull (if reported.reward.isFinite then some pull else none)))
  /-- A resolved pull stays as it is until it is dropped. -/
  keeps : ∀ later past middle, turns = later ++ past → History start past middle →
    History middle later governor → ∀ decision pull,
    middle.registry.findPull? decision = some pull → pull.resolved = true →
      governor.registry.findPull? decision = some pull ∨
        ∃ turn ∈ later, ∃ cutoff,
          turn.command.pullCutoff? turn.before.settings = some cutoff ∧ pull.loggedAt < cutoff
  /-- A pull has no outcome, or one of finite numbers. -/
  finite : ∀ symbol, ∀ pull ∈ governor.registry.historyOf symbol, ∀ outcome,
    pull.outcome = some outcome → outcome.AllFinite

/-- No decision feeds an arm twice, because feeding accepts an outcome, which resolves the pull. -/
theorem not_feeds_again {past : List Turn}
    (hrecorded : Recorded past turn.before.arena)
    (hsteps : ∀ turn ∈ past, CreditStep turn) {pull : Pull} {reported : Outcome}
    (hcredits : turn.Credits pull reported) :
    ∀ earlier ∈ past, ∀ other, ¬ earlier.Feeds pull.decision other := by
  intro earlier hearlier other hfeeds
  obtain ⟨-, hfound, hopen, -⟩ := hcredits
  obtain ⟨first, -, -, -, -, haccepted⟩ := (hsteps earlier hearlier).credits_of_feeds hfeeds
  have hdecision : pull.decision ∈ acceptedDecisions past :=
    List.mem_filterMap.mpr ⟨earlier, hearlier, haccepted⟩
  obtain ⟨symbol, hpull, -⟩ := (hrecorded.filed.findPull?_eq_some_iff _).mp hfound
  rw [← hrecorded.resolved_iff symbol pull hpull, hopen] at hdecision
  cases hdecision

/-- Whatever is selected, reported, reset or pruned in whatever order, each decision feeds its
reward at most once and only to the arm that was selected for it, arms count what they were
selected and credited for, and a resolved pull keeps its outcome. -/
theorem rewards_credited_once {settings : Settings} {entropy : Seeding} {notifier : Notifier}
    {clock : Instant} (hcreate : Governor.create settings entropy notifier clock = .ok start)
    (hhistory : History start turns governor)
    (hcommands : ∀ turn ∈ turns, turn.command.bypasses = false) :
    CreditsOnce start turns governor := by
  obtain ⟨-, -, hempty⟩ := Governor.create_eq_ok hcreate
  have hsteps := hhistory.creditStep hempty hcommands
  obtain ⟨hrecorded, hcounted⟩ := hhistory.recorded_counted hempty hcommands
  refine ⟨hrecorded.distinct, ?_, fun turn hturn pull => (hsteps turn hturn).finite_of_accepted,
    hcounted.stats, fun command decision reported pull => Governor.step_of_resolved, ?_,
    hrecorded.finite⟩
  · rintro later turn past decision id rfl hfeeds
    have hpast : ∀ earlier ∈ past, earlier ∈ later ++ turn :: past :=
      fun earlier hearlier => List.mem_append_right _ (List.mem_cons_of_mem _ hearlier)
    obtain ⟨hbefore, -⟩ := hhistory.before.recorded_counted hempty fun earlier hearlier =>
      hcommands earlier (hpast earlier hearlier)
    have hturn : turn ∈ later ++ turn :: past := List.mem_append_right _ List.mem_cons_self
    obtain ⟨pull, reported, rfl, rfl, hcredits, -⟩ := (hsteps turn hturn).credits_of_feeds hfeeds
    obtain ⟨symbol, hpull, -⟩ := (hbefore.filed.findPull?_eq_some_iff _).mp hcredits.2.1
    exact ⟨⟨pull, reported, rfl, rfl, hcredits⟩, hbefore.selected symbol pull hpull,
      not_feeds_again hbefore (fun earlier hearlier => hsteps earlier (hpast earlier hearlier))
        hcredits⟩
  · rintro later past middle rfl hpast hlater decision pull hfound hresolved
    obtain ⟨hmiddle, -⟩ := hpast.recorded_counted hempty fun turn hturn =>
      hcommands turn (List.mem_append_right _ hturn)
    obtain ⟨symbol, hpull, rfl⟩ := (hmiddle.filed.findPull?_eq_some_iff decision).mp hfound
    obtain hkept | hpruned :=
      hlater.mem_historyOf_of_resolved hpast hempty hcommands hpull hresolved
    · exact .inl ((hrecorded.filed.findPull?_eq_some_iff _).mpr ⟨symbol, hkept, rfl⟩)
    · exact .inr hpruned

/-- An arm that is selected twice, with two outcomes reported for the first of the decisions, counts
two selections and one reward. -/
theorem rewards_credited_once_of_two_reports :
    ∃ start turns governor,
      Governor.create { selection := { policy := .ucb1 } } 0 .log ⟨0⟩ = .ok start ∧
      History start turns governor ∧ (∀ turn ∈ turns, turn.command.bypasses = false) ∧
      acceptedDecisions turns = [.drawn .decisions 1, .drawn .decisions 1] ∧
      governor.registry.arms.values.map (fun arm => (arm.stats.pulls, arm.stats.observations)) =
        [(2, 1)] ∧
      CreditsOnce start turns governor := by
  let contest : Contest := ⟨"BTC", "UP", .buy⟩
  let commands : List Command :=
    [.ensureArms contest [⟨.given ⟨1⟩, .baseline⟩], .select contest .empty,
      .recordOutcome (.drawn .decisions 1) ⟨0.5, 0.5, 0.0, 0.0⟩,
      .recordOutcome (.drawn .decisions 1) ⟨0.7, 0.7, 0.0, 0.0⟩, .select contest .empty]
  obtain ⟨start, turns, governor, hcreate, hhistory, -, hcheck⟩ :=
    Governor.exists_history_of_replays { selection := { policy := .ucb1 } } commands
      (fun turns governor =>
        turns.all (fun turn => turn.command.bypasses == false) &&
        acceptedDecisions turns == [.drawn .decisions 1, .drawn .decisions 1] &&
        governor.registry.arms.values.map
          (fun arm => (arm.stats.pulls, arm.stats.observations)) == [(2, 1)])
      (by decide +kernel)
  simp only [Bool.and_eq_true, List.all_eq_true, beq_iff_eq] at hcheck
  obtain ⟨⟨hcommands, haccepted⟩, hcounters⟩ := hcheck
  exact ⟨start, turns, governor, hcreate, hhistory, hcommands, haccepted, hcounters,
    rewards_credited_once hcreate hhistory hcommands⟩

/-- A later report of a reward that is not finite is not answered with the resolved pull. -/
theorem later_report_answers_nothing :
    ∃ start turns governor pull,
      Governor.create { selection := { policy := .ucb1 } } 0 .log ⟨0⟩ = .ok start ∧
      History start turns governor ∧ (∀ turn ∈ turns, turn.command.bypasses = false) ∧
      governor.registry.findPull? (.drawn .decisions 1) = some pull ∧ pull.resolved = true ∧
      governor.step (.recordOutcome (.drawn .decisions 1) ⟨0.0 / 0.0, 0.5, 0.0, 0.0⟩) =
        .ok (governor, .ok (.pull none)) := by
  let contest : Contest := ⟨"BTC", "UP", .buy⟩
  let commands : List Command :=
    [.ensureArms contest [⟨.given ⟨1⟩, .baseline⟩], .select contest .empty,
      .recordOutcome (.drawn .decisions 1) ⟨0.5, 0.5, 0.0, 0.0⟩]
  obtain ⟨start, turns, governor, hcreate, hhistory, -, hcheck⟩ :=
    Governor.exists_history_of_replays { selection := { policy := .ucb1 } } commands
      (fun turns governor =>
        turns.all (fun turn => turn.command.bypasses == false) &&
        (governor.registry.findPull? (.drawn .decisions 1)).any Pull.resolved)
      (by decide +kernel)
  simp only [Bool.and_eq_true, List.all_eq_true, beq_iff_eq, Option.any_eq_true] at hcheck
  obtain ⟨hcommands, pull, hfound, hresolved⟩ := hcheck
  have hstep (reported : Outcome) :
      governor.step (.recordOutcome (.drawn .decisions 1) reported) =
        .ok (governor, .ok (.pull (if reported.reward.isFinite then some pull else none))) :=
    Governor.step_of_resolved hfound hresolved rfl
  have hreward : (0.0 / 0.0 : Float).isFinite = false := by decide +kernel
  have hanswer := hstep ⟨0.0 / 0.0, 0.5, 0.0, 0.0⟩
  rw [hreward] at hanswer
  exact ⟨start, turns, governor, pull, hcreate, hhistory, hcommands, hfound, hresolved, hanswer⟩

end ExposureControl
