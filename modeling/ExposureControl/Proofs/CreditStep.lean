import ExposureControl.Proofs.Filing
import ExposureControl.Proofs.Soundness

/-!
# What a step does to pulls and statistics

Seen from the statistics of arms, a step through the governor is one of five: it selects an arm,
credits a reward to an arm, answers a report that was answered before, drops old pulls, or leaves
all pulls alone and at most clears statistics or provides new arms.
-/

namespace ExposureControl

namespace Outcome

/-- Whether all four numbers of an outcome are finite. -/
structure AllFinite (outcome : Outcome) : Prop where
  reward : outcome.reward.isFinite = true
  profit : outcome.profit.isFinite = true
  slippage : outcome.slippage.isFinite = true
  fees : outcome.fees.isFinite = true

theorem isFinite_finite?_getD (value : Float) :
    ((Binary64.finite? value).getD 0.0).isFinite = true := by
  unfold Binary64.finite?
  split
  · next hfinite => exact hfinite
  · decide

theorem usable?_eq_none_iff (outcome : Outcome) :
    outcome.usable? = none ↔ outcome.reward.isFinite = false := by
  unfold usable? Binary64.finite?
  cases outcome.reward.isFinite <;> simp

/-- What is usable of an outcome is its reward and, where they are not finite, zeros in place of
the other numbers. -/
theorem usable?_spec {outcome usable : Outcome} (husable : outcome.usable? = some usable) :
    usable.AllFinite ∧ usable.reward = outcome.reward := by
  unfold usable? at husable
  obtain ⟨reward, hreward, rfl⟩ := Option.map_eq_some_iff.mp husable
  unfold Binary64.finite? at hreward
  split at hreward
  · next hfinite =>
    obtain rfl := Option.some.inj hreward
    exact ⟨⟨hfinite, isFinite_finite?_getD _, isFinite_finite?_getD _, isFinite_finite?_getD _⟩,
      rfl⟩
  · cases hreward

end Outcome

/-- Whether a command writes arms or pulls past selections and reports. -/
def Command.bypasses : Command → Bool
  | .restoreArm _ | .logPull .. | .applyReward .. => true
  | _ => false

namespace Turn

/-- The pull with which a turn answered a reported outcome, if it accepted the outcome. -/
def accepted? (turn : Turn) : Option Pull :=
  match turn.command, turn.answer with
  | .recordOutcome .., .ok (.pull pull?) => pull?
  | .recordTrade .., .ok (.pull pull?) => pull?
  | _, _ => none

def resets (contest : Contest) (turn : Turn) : Bool :=
  match turn.command with
  | .resetArms other => other = contest
  | _ => false

/-- Whether a turn changes no statistics, except by a reset. -/
structure KeepsStats (turn : Turn) : Prop where
  known : ∀ {id : ObjectId} {arm : Arm}, turn.before.registry.arms.find? id = some arm →
    ∃ kept, turn.after.registry.arms.find? id = some kept ∧ kept.contest = arm.contest ∧
      kept.stats = if turn.resets arm.contest then .empty else arm.stats
  fresh : ∀ {id : ObjectId} {arm : Arm}, turn.before.registry.arms.find? id = none →
    turn.after.registry.arms.find? id = some arm → arm.stats = .empty

end Turn

/-- What a turn does to pulls and statistics. -/
inductive CreditStep (turn : Turn) : Prop
  | kept (hselected : turn.selected? = none) (haccepted : turn.accepted? = none)
      (hdrawn : turn.after.arena.decisionsDrawn = turn.before.arena.decisionsDrawn)
      (hpulls : Registry.SamePulls turn.before.registry turn.after.registry)
      (hstats : turn.KeepsStats)
  | pruned (cutoff : Instant) (hselected : turn.selected? = none)
      (haccepted : turn.accepted? = none)
      (hcutoff : turn.command.pullCutoff? turn.before.settings = some cutoff)
      (hstats : turn.KeepsStats)
      (harena : turn.after.arena = { turn.before.arena with
        registry := (turn.before.registry.prunePulls cutoff).1 })
  | selected (generator : Generator) (arm : Arm) (context : Context)
      (hfound : turn.before.registry.arms.find? arm.id = some arm)
      (hselected : turn.selected? =
        some (arm.contest, turn.before.arena.selectionOf arm context))
      (haccepted : turn.accepted? = none)
      (harena : turn.after.arena =
        (turn.before.arena.withGenerator arm.contest.symbol generator).committed
          turn.before.settings.selection turn.before.clock arm.contest.symbol arm context)
  | again (symbol : String) (pull : Pull) (reported outcome : Outcome)
      (hselected : turn.selected? = none) (haccepted : turn.accepted? = some pull)
      (hreport : turn.command.report? turn.before.settings = some (pull.decision, reported))
      (husable : reported.usable? = some outcome)
      (hlocated : turn.before.registry.locate? pull.decision = some (symbol, pull))
      (hresolved : pull.resolved = true) (harena : turn.after.arena = turn.before.arena)
  | credited (symbol : String) (pull : Pull) (reported outcome : Outcome) (arm : Arm)
      (stats : Stats) (hselected : turn.selected? = none)
      (haccepted : turn.accepted? = some { pull with outcome := some outcome })
      (hreport : turn.command.report? turn.before.settings = some (pull.decision, reported))
      (husable : reported.usable? = some outcome)
      (hlocated : turn.before.registry.locate? pull.decision = some (symbol, pull))
      (hresolved : pull.resolved = false)
      (hfound : turn.before.registry.arms.find? pull.arm = some arm)
      (hstats : arm.stats.recordReward outcome.reward
        turn.before.settings.selection.decay.halfLife turn.before.clock = .ok stats)
      (harena : turn.after.arena = { turn.before.arena with
        registry :=
          { turn.before.registry.withOutcome symbol { pull with outcome := some outcome } with
            arms := turn.before.registry.arms.insert pull.arm
              { arm with stats, updatedAt := turn.before.clock } } })

/-! ## Steps that select or credit nothing -/

namespace Turn

variable {turn : Turn}

theorem keepsStats_of_sameArms (hresets : ∀ contest, turn.resets contest = false)
    (hsame : Registry.SameArms (fun arm => (arm.contest, arm.stats)) turn.before.registry
      turn.after.registry) : turn.KeepsStats := by
  refine ⟨fun {id arm} hfound => ?_, fun {id arm} hmissing hfound => ?_⟩
  · have harm := hsame.arms id
    rw [hfound, Option.map_some] at harm
    obtain ⟨kept, hkept, hview⟩ := Option.map_eq_some_iff.mp harm
    rw [Prod.mk.injEq] at hview
    exact ⟨kept, hkept, hview.1, by rw [hresets, hview.2]; rfl⟩
  · have harm := hsame.arms id
    rw [hmissing, hfound] at harm
    cases harm

theorem keepsStats_of_provisioned {contest : Contest}
    (hresets : ∀ contest, turn.resets contest = false)
    (hprovided : Registry.Provisioned contest turn.before.registry turn.after.registry) :
    turn.KeepsStats := by
  refine ⟨fun {id arm} hfound => ?_, fun hmissing hfound => (hprovided.fresh hmissing hfound).2⟩
  obtain ⟨role, updatedAt, hkept⟩ := hprovided.kept hfound
  exact ⟨_, hkept, rfl, by rw [hresets]; rfl⟩

theorem keepsStats_of_reset {contest : Contest} {now : Instant}
    (hsound : turn.before.registry.Sound) (hcommand : turn.command = .resetArms contest)
    (hreset : turn.after.registry = (turn.before.registry.resetStats contest now).1) :
    turn.KeepsStats := by
  have harms := Registry.find?_resetStats contest now turn.before.registry
  rw [← hreset] at harms
  refine ⟨fun {id arm} hfound => ?_, fun {id arm} hmissing hfound => ?_⟩
  · have hlisted : id ∈ turn.before.registry.idsOf contest ↔ contest = arm.contest := by
      rw [hsound.mem_idsOf_iff]
      constructor
      · rintro ⟨listed, hlookup, hcontest⟩
        obtain rfl := Option.some.inj (hfound.symm.trans hlookup)
        exact hcontest.symm
      · exact fun hcontest => ⟨arm, hfound, hcontest.symm⟩
    have hafter := harms id
    rw [hfound] at hafter
    by_cases hcontest : contest = arm.contest
    · rw [if_pos (hlisted.mpr hcontest)] at hafter
      refine ⟨_, hafter, rfl, ?_⟩
      rw [resets, hcommand]
      exact (if_pos (decide_eq_true hcontest)).symm
    · rw [if_neg (mt hlisted.mp hcontest)] at hafter
      refine ⟨_, hafter, rfl, ?_⟩
      rw [resets, hcommand]
      exact (if_neg (by simpa using hcontest)).symm
  · have hafter := harms id
    rw [hmissing, hfound] at hafter
    split at hafter <;> cases hafter

end Turn

/-! ## Every step -/

/-- What a report does, if no pull has lost its arm. -/
theorem creditStep_of_report {governor : Governor} {command : Command} {decision : DecisionId}
    {outcome : Outcome} {arena : Arena} {result : Except Refusal (Option Pull)}
    (harms : ∀ symbol, ∀ pull ∈ governor.registry.historyOf symbol,
      ∃ arm, governor.registry.arms.find? pull.arm = some arm)
    (hreport : command.report? governor.settings = some (decision, outcome))
    (hrecord : governor.arena.recordOutcome governor.settings.selection governor.clock decision
      outcome = .ok (arena, result)) (after : Governor) (hafter : after.arena = arena) :
    CreditStep ⟨governor, command, result.map .pull, after⟩ := by
  subst hafter
  let turn : Turn := ⟨governor, command, result.map .pull, after⟩
  have hselected : turn.selected? = none := by
    apply Turn.selected?_of_not_select
    rintro contest context rfl
    cases hreport
  have hresets : ∀ contest, turn.resets contest = false := by
    intro contest
    cases command with
    | recordOutcome | recordTrade => rfl
    | _ => cases hreport
  have haccepted : turn.accepted? = result.toOption.join := by
    cases command with
    | recordOutcome | recordTrade => cases result <;> rfl
    | _ => cases hreport
  have hkept (hsame : after.arena = governor.arena) (hnone : turn.accepted? = none) :
      CreditStep turn := by
    have hregistry : after.registry = governor.registry := congrArg Arena.registry hsame
    refine .kept hselected hnone (congrArg Arena.decisionsDrawn hsame) ?_ ?_
    · rw [show turn.after.registry = governor.registry from hregistry]
      exact ⟨rfl, rfl⟩
    · apply Turn.keepsStats_of_sameArms hresets
      rw [show turn.after.registry = governor.registry from hregistry]
      exact .refl _ governor.registry
  obtain ⟨-, hsame, rfl⟩ | ⟨usable, registry, applied, husable, happly, harena, rfl⟩ :=
    Arena.recordOutcome_cases hrecord
  · exact hkept hsame haccepted
  · obtain ⟨-, rfl, rfl⟩ | ⟨symbol, pull, hlocated, hresolution⟩ :=
      Registry.applyReward_cases happly
    · exact hkept harena haccepted
    · obtain ⟨-, hfound⟩ := (Registry.locate?_eq_some_iff decision symbol pull).mp hlocated
      obtain rfl : pull.decision = decision := by simpa using List.find?_some hfound
      obtain ⟨hresolved, rfl, rfl⟩ | ⟨-, hmissing, -, -⟩ |
        ⟨hresolved, arm, stats, harm, hstats, rfl, rfl⟩ := hresolution
      · exact .again symbol pull outcome usable hselected haccepted hreport husable hlocated
          hresolved harena
      · obtain ⟨arm, harm⟩ := harms symbol pull (List.mem_of_find?_eq_some hfound)
        cases hmissing.symm.trans harm
      · exact .credited symbol pull outcome usable arm stats hselected haccepted hreport husable
          hlocated hresolved harm hstats harena

/-- Every step of the governor that does not bypass selections and reports is one of the five. -/
theorem creditStep_of_step {governor next : Governor} {command : Command}
    {answer : Except Refusal Reply} (hstep : governor.step command = .ok (next, answer))
    (hcommand : command.bypasses = false) (hsound : governor.registry.Sound)
    (harms : ∀ symbol, ∀ pull ∈ governor.registry.historyOf symbol,
      ∃ arm, governor.registry.arms.find? pull.arm = some arm) :
    CreditStep ⟨governor, command, answer, next⟩ := by
  obtain ⟨harenaStep, -, -⟩ := Governor.arenaStep_of_step hstep
  clear hstep
  obtain ⟨settings, seeding, clock, arena, costs, shadow, monitor, gate, notifier⟩ := next
  dsimp only at harenaStep
  cases harenaStep with
  | spared hspared =>
    have hquiet : (⟨governor, command, answer, ⟨settings, seeding, clock, governor.arena, costs,
        shadow, monitor, gate, notifier⟩⟩ : Turn).selected? = none := by
      apply Turn.selected?_of_not_select
      rintro contest context rfl
      cases hspared
    refine .kept hquiet ?_ rfl ⟨rfl, rfl⟩
      (Turn.keepsStats_of_sameArms (fun contest => ?_) (.refl _ governor.registry))
    · cases command with
      | recordOutcome | recordTrade => cases hspared
      | _ => rfl
    · cases command with
      | resetArms => cases hspared
      | _ => rfl
  | ensureArms contest offers =>
    refine .kept rfl rfl rfl
      (Registry.SameRecords.ensureArms contest offers governor.clock _).toSamePulls ?_
    exact Turn.keepsStats_of_provisioned (fun _ => rfl)
      (Registry.ensureArms_spec hsound contest offers governor.clock).2
  | select hselect =>
    obtain ⟨⟨refusal, rfl⟩, rfl⟩ | ⟨generator, arm, -, ⟨hfound, rfl⟩, rfl, rfl⟩ :=
      Arena.select_cases hsound hselect
    · exact .kept rfl rfl rfl ⟨rfl, rfl⟩
        (Turn.keepsStats_of_sameArms (fun _ => rfl) (.refl _ governor.registry))
    · exact .selected generator arm _ hfound rfl rfl rfl
  | report hreport hrecord => exact creditStep_of_report harms hreport hrecord _ rfl
  | setStatus id status =>
    exact .kept rfl rfl rfl
      (Registry.SameRecords.setStatus id status governor.clock _).toSamePulls
      (Turn.keepsStats_of_sameArms (fun _ => rfl)
        (.setStatus (fun _ _ _ => rfl) id status governor.clock governor.registry))
  | setPresetStatus preset status =>
    exact .kept rfl rfl rfl
      (Registry.SameRecords.setPresetStatus preset status governor.clock _).toSamePulls
      (Turn.keepsStats_of_sameArms (fun _ => rfl)
        (.setPresetStatus (fun _ _ _ => rfl) preset status governor.clock governor.registry))
  | resetArms contest =>
    exact .kept rfl rfl rfl
      (Registry.SameRecords.resetStats contest governor.clock _).toSamePulls
      (Turn.keepsStats_of_reset hsound rfl rfl)
  | chargeLedger hcharge =>
    obtain ⟨rfl, -⟩ := Registry.chargeLedger_eq_ok_iff.mp hcharge
    exact .kept rfl rfl rfl ⟨rfl, rfl⟩
      (Turn.keepsStats_of_sameArms (fun _ => rfl) ⟨fun _ => rfl, rfl, fun _ => rfl⟩)
  | seedLedger symbol ledger =>
    exact .kept rfl rfl rfl ⟨rfl, rfl⟩
      (Turn.keepsStats_of_sameArms (fun _ => rfl) ⟨fun _ => rfl, rfl, fun _ => rfl⟩)
  | @prune _ cutoff _ hcutoff =>
    cases command with
    | prunePulls | pruneExpired =>
      exact .pruned cutoff rfl rfl hcutoff
        (Turn.keepsStats_of_sameArms (fun _ => rfl) ⟨fun _ => rfl, rfl, fun _ => rfl⟩) rfl
    | _ => cases hcutoff
  | restoreArm | logPull | applyReward => cases hcommand

end ExposureControl
