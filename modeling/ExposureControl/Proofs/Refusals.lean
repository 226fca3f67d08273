import ExposureControl.Proofs.ArmOrigin
import ExposureControl.Proofs.Filing

/-!
# Refusals

A refused command changes nothing.  Resolving a decision marks its pull before it looks for the
pull's arm, and a selection logs before it charges, so this rests on an invariant: arms are kept
under their own identifiers, and every pull on record is of an arm on record.  It holds after
every history, whatever arms were restored and whatever decisions were repeated.
-/

namespace ExposureControl

namespace Registry

variable {before middle after registry : Registry} {symbol : String} {pull : Pull}

/-- Whether an arm that is on record under an identifier has that identifier. -/
def Keyed (registry : Registry) : Prop :=
  ∀ {id : ObjectId} {arm : Arm}, registry.arms.find? id = some arm → arm.id = id

/-- Whether arms are kept under their own identifiers, and every pull is of an arm on record. -/
structure Backed (registry : Registry) : Prop where
  keyed : registry.Keyed
  armed : ∀ {symbol : String} {pull : Pull}, pull ∈ registry.historyOf symbol →
    ∃ arm, registry.arms.find? pull.arm = some arm

/-- Whether every identifier on record stays on record, and arms stay under their own. -/
structure Retains (before after : Registry) : Prop where
  keyed : before.Keyed → after.Keyed
  kept : ∀ {id : ObjectId} {known : Arm}, before.arms.find? id = some known →
    ∃ arm, after.arms.find? id = some arm

/-! ## Arms stay on record -/

namespace Retains

theorem refl (registry : Registry) : Retains registry registry :=
  ⟨fun hkeyed => hkeyed, fun hknown => ⟨_, hknown⟩⟩

theorem trans (hfirst : Retains before middle) (hsecond : Retains middle after) :
    Retains before after where
  keyed hkeyed := hsecond.keyed (hfirst.keyed hkeyed)
  kept hknown := by
    obtain ⟨made, hmiddle⟩ := hfirst.kept hknown
    exact hsecond.kept hmiddle

theorem ofSameArms (hsame : SameArms Arm.identity before after) : Retains before after where
  keyed hkeyed {id arm} hfound := by
    have harm := hsame.arms id
    rw [hfound, Option.map_some] at harm
    obtain ⟨known, hknown, hidentity⟩ := Option.map_eq_some_iff.mp harm.symm
    exact (congrArg Prod.fst hidentity).symm.trans (hkeyed hknown)
  kept hknown := by
    obtain ⟨arm, hfound, -⟩ := (Extends.ofSameArms hsame).kept hknown
    exact ⟨arm, hfound⟩

theorem insert {arm : Arm} (harms : after.arms = before.arms.insert arm.id arm) :
    Retains before after where
  keyed hkeyed {id found} hfound := by
    rw [harms, Table.find?_insert] at hfound
    split at hfound
    · next heq =>
      obtain rfl := Option.some.inj hfound
      exact heq.symm
    · exact hkeyed hfound
  kept {id known} hknown := by
    rw [harms, Table.find?_insert]
    split
    · exact ⟨arm, rfl⟩
    · exact ⟨known, hknown⟩

theorem settleOffer (contest : Contest) (now : Instant) (registry : Registry) (offer : Offer) :
    Retains registry (registry.settleOffer contest now offer) := by
  unfold Registry.settleOffer
  split
  · let made : Arm := .create (.drawn .arms (registry.armsDrawn + 1)) contest offer now
    have harms : (registry.createArm contest now offer).arms =
        registry.arms.insert made.id made := rfl
    exact insert harms
  · split
    · exact refl registry
    · exact ofSameArms (.changeArm registry _ fun _ => rfl)

theorem settleOffers (contest : Contest) (now : Instant) (offers : List Offer)
    (registry : Registry) :
    Retains registry (offers.foldl (Registry.settleOffer contest now) registry) := by
  induction offers generalizing registry with
  | nil => exact refl registry
  | cons offer rest ih => exact (settleOffer contest now registry offer).trans (ih _)

end Retains

end Registry

theorem RosterStep.retains {before after : Registry} {now : Instant} {command : Command}
    (hstep : RosterStep before now command after) : Registry.Retains before after := by
  obtain hsame | ⟨contest, offers, -, rfl⟩ | ⟨arm, -, rfl⟩ := hstep.identity_cases
  · exact .ofSameArms hsame
  · have hopened := Registry.sameArms_open Arm.identity contest before
    exact (Registry.Retains.ofSameArms hopened).trans (.settleOffers contest now offers _)
  · exact .insert rfl

/-! ## Pulls are of arms on record -/

namespace Registry

variable {registry next : Registry} {symbol : String} {pull : Pull}

/-- A pull that is on record after a selection was logged was there before, or is of the arm that
was looked up. -/
theorem mem_historyOf_logPull {id : ObjectId} {context : Context} {decision : DecisionId}
    {halfLife : Span} {now : Instant} {answer : Except Refusal Pull}
    (hlog : registry.logPull id context decision halfLife now = .ok (next, answer))
    (hpull : pull ∈ next.historyOf symbol) :
    pull ∈ registry.historyOf symbol ∨
      pull.arm = id ∧ ∃ arm, registry.arms.find? id = some arm := by
  unfold logPull at hlog
  cases hfound : registry.arms.find? id with
  | none =>
    simp only [hfound, Except.ok.injEq, Prod.mk.injEq] at hlog
    obtain ⟨rfl, -⟩ := hlog
    exact .inl hpull
  | some arm =>
    simp only [hfound, Fault.bind_eq_ok_iff, Fault.pure_eq_ok_iff, Prod.mk.injEq] at hlog
    obtain ⟨stats, -, rfl, -⟩ := hlog
    simp only [historyOf, Table.find?_update] at hpull
    split at hpull
    · next heq =>
      rw [Option.getD_some, List.mem_append, List.mem_singleton] at hpull
      cases hpull with
      | inl hold =>
        rw [heq]
        exact .inl hold
      | inr hnew =>
        rw [hnew]
        exact .inr ⟨rfl, arm, rfl⟩
    · exact .inl hpull

/-- Resolving a decision puts no pull of another arm on record. -/
theorem exists_pull_of_applyReward {decision : DecisionId} {outcome : Outcome} {halfLife : Span}
    {now : Instant} {answer : Except Refusal Pull}
    (happly : registry.applyReward decision outcome halfLife now = .ok (next, answer))
    (hpull : pull ∈ next.historyOf symbol) :
    ∃ known ∈ registry.historyOf symbol, known.arm = pull.arm := by
  have harm : pull.arm ∈ (next.historyOf symbol).map Pull.arm := List.mem_map_of_mem hpull
  rw [map_historyOf_applyReward (fun _ _ => rfl) happly] at harm
  exact List.mem_map.mp harm

end Registry

/-- A pull that a selection leaves on record was there before, or is of an arm on record. -/
theorem Arena.arm_of_pull_of_select {settings : Settings.Selection} {seeding : Seeding}
    {now : Instant} {contest : Contest} {context : Context} {arena next : Arena}
    {answer : Except Refusal Selection}
    (hselect : arena.select settings seeding now contest context = .ok (next, answer))
    {symbol : String} {pull : Pull} (hpull : pull ∈ next.registry.historyOf symbol) :
    pull ∈ arena.registry.historyOf symbol ∨
      ∃ arm, arena.registry.arms.find? pull.arm = some arm := by
  obtain ⟨refusal, hrefused⟩ | ⟨generator, arm, -, hcommit⟩ :=
    select_refused_or_committed settings seeding now contest context arena
  · rw [hrefused] at hselect
    cases hselect
    exact .inl hpull
  · rw [hcommit, commit] at hselect
    simp only [Fault.bind_eq_ok_iff, Prod.exists] at hselect
    obtain ⟨registry, logged, hlog, hselect⟩ := hselect
    have hlogged : pull ∈ registry.historyOf symbol := by
      cases logged with
      | error refusal =>
        cases hselect
        exact hpull
      | ok logged =>
        simp only [Fault.bind_eq_ok_iff, Fault.pure_eq_ok_iff, Prod.mk.injEq,
          Registry.chargeLedger_eq_ok_iff] at hselect
        obtain ⟨charged, ⟨rfl, -⟩, rfl, -⟩ := hselect
        exact hpull
    obtain hold | ⟨harm, hfound⟩ := Registry.mem_historyOf_logPull hlog hlogged
    · exact .inl hold
    · rw [harm]
      exact .inr hfound

namespace ArenaStep

variable {governor : Governor} {command : Command} {answer : Except Refusal Reply} {arena : Arena}

/-- The arm of a pull that is on record after a step was of a pull on record before, or was on
record itself. -/
theorem arm_of_pull (hstep : ArenaStep governor command answer arena) {symbol : String}
    {pull : Pull} (hpull : pull ∈ arena.registry.historyOf symbol) :
    (∃ known ∈ governor.registry.historyOf symbol, known.arm = pull.arm) ∨
      ∃ arm, governor.registry.arms.find? pull.arm = some arm := by
  have hsame : Registry.SamePulls governor.registry arena.registry →
      ∃ known ∈ governor.registry.historyOf symbol, known.arm = pull.arm := fun hsame =>
    ⟨pull, hsame.historyOf symbol ▸ hpull, rfl⟩
  cases hstep with
  | spared => exact .inl ⟨pull, hpull, rfl⟩
  | ensureArms contest offers =>
    exact .inl (hsame
      (Registry.SameRecords.ensureArms contest offers governor.clock governor.registry).toSamePulls)
  | restoreArm arm => exact .inl ⟨pull, hpull, rfl⟩
  | select hselect =>
    obtain hold | hfound := Arena.arm_of_pull_of_select hselect hpull
    · exact .inl ⟨pull, hold, rfl⟩
    · exact .inr hfound
  | report _ hrecord =>
    obtain ⟨-, rfl, -⟩ | ⟨usable, registry, result, -, happly, rfl, -⟩ :=
      Arena.recordOutcome_cases hrecord
    · exact .inl ⟨pull, hpull, rfl⟩
    · exact .inl (Registry.exists_pull_of_applyReward happly hpull)
  | setStatus id status =>
    exact .inl (hsame
      (Registry.SameRecords.setStatus id status governor.clock governor.registry).toSamePulls)
  | setPresetStatus preset status =>
    exact .inl (hsame (Registry.SameRecords.setPresetStatus preset status governor.clock
      governor.registry).toSamePulls)
  | resetArms contest =>
    exact .inl (hsame
      (Registry.SameRecords.resetStats contest governor.clock governor.registry).toSamePulls)
  | logPull hlog =>
    obtain hold | ⟨rfl, hfound⟩ := Registry.mem_historyOf_logPull hlog hpull
    · exact .inl ⟨pull, hold, rfl⟩
    · exact .inr hfound
  | applyReward happly => exact .inl (Registry.exists_pull_of_applyReward happly hpull)
  | chargeLedger hcharge =>
    obtain ⟨rfl, -⟩ := Registry.chargeLedger_eq_ok_iff.mp hcharge
    exact .inl ⟨pull, hpull, rfl⟩
  | seedLedger => exact .inl ⟨pull, hpull, rfl⟩
  | prune =>
    obtain ⟨hold, -⟩ := (Registry.mem_historyOf_prunePulls _ _ _ _).mp hpull
    exact .inl ⟨pull, hold, rfl⟩

/-- One step keeps every pull backed by its arm. -/
theorem backed (hstep : ArenaStep governor command answer arena)
    (hbacked : governor.registry.Backed) : arena.registry.Backed := by
  have hretains := hstep.roster.retains
  refine ⟨hretains.keyed hbacked.keyed, fun {symbol pull} hpull => ?_⟩
  obtain ⟨known, hknown, harm⟩ | ⟨arm, hfound⟩ := hstep.arm_of_pull hpull
  · obtain ⟨arm, hfound⟩ := hbacked.armed hknown
    rw [harm] at hfound
    exact hretains.kept hfound
  · exact hretains.kept hfound

end ArenaStep

/-- After every history arms are kept under their own identifiers, and every pull on record is of
an arm on record. -/
theorem History.backed {start governor : Governor} {turns : List Turn}
    (hhistory : History start turns governor) (hempty : start.arena = .empty) :
    governor.registry.Backed := by
  induction hhistory with
  | start =>
    rw [Governor.registry, hempty]
    constructor
    · intro id arm hnone
      cases hnone
    · intro symbol pull hnone
      cases hnone
  | turn past step ih => exact (Governor.arenaStep_of_step step).1.backed ih

/-! ## What is refused -/

/-- Why a command is refused. -/
inductive Governor.Refuses (governor : Governor) : Command → Refusal → Prop
  | disabled (contest : Contest) (context : Context)
      (hdisabled : governor.settings.selection.enabled = false) :
      Refuses governor (.select contest context) .selectionDisabled
  | exhausted (contest : Contest) (context : Context)
      (henabled : governor.settings.selection.enabled = true)
      (hnone : governor.arena.offered governor.settings.selection contest governor.clock = []) :
      Refuses governor (.select contest context) (.noEligibleArm contest)
  | setStatus {id : ObjectId} (status : ArmStatus)
      (hmissing : governor.registry.arms.find? id = none) :
      Refuses governor (.setStatus id status) (.unknownArm id)
  | setPresetStatus {preset : ObjectId} (status : ArmStatus)
      (hnone : ∀ id arm, governor.registry.arms.find? id = some arm → arm.preset ≠ preset) :
      Refuses governor (.setPresetStatus preset status) (.unknownPreset preset)
  /-- An outcome with a finite reward is reported for a decision that is not on record. -/
  | report {command : Command} {decision : DecisionId} {outcome : Outcome}
      (hreport : command.report? governor.settings = some (decision, outcome))
      (husable : outcome.usable?.isSome = true)
      (hmissing : governor.registry.locate? decision = none) :
      Refuses governor command (.unknownDecision decision)
  | logPull {id : ObjectId} (decision : DecisionId) (context : Context) (halfLife : Span)
      (time : Instant) (hmissing : governor.registry.arms.find? id = none) :
      Refuses governor (.logPull id decision context halfLife time) (.unknownArm id)
  | applyReward {decision : DecisionId} (outcome : Outcome) (halfLife : Span) (time : Instant)
      (hmissing : governor.registry.locate? decision = none) :
      Refuses governor (.applyReward decision outcome halfLife time) (.unknownDecision decision)

namespace Registry

variable {registry next : Registry}

/-- Where every pull is backed by its arm, resolving a decision is refused only if the decision is
not on record, and then without effect. -/
theorem applyReward_refused (hbacked : registry.Backed) {decision : DecisionId}
    {outcome : Outcome} {halfLife : Span} {now : Instant} {refusal : Refusal}
    (happly : registry.applyReward decision outcome halfLife now =
      .ok (next, .error refusal)) :
    next = registry ∧ registry.locate? decision = none ∧ refusal = .unknownDecision decision := by
  obtain ⟨hmissing, rfl, hanswer⟩ | ⟨symbol, pull, hlocated, ⟨-, -, hanswer⟩ | ⟨-, hgone, -, -⟩ |
    ⟨-, arm, stats, -, -, -, hanswer⟩⟩ := applyReward_cases happly
  · exact ⟨rfl, hmissing, Except.error.inj hanswer⟩
  · cases hanswer
  · -- the pull would be without its arm
    obtain ⟨-, hfound⟩ := (locate?_eq_some_iff decision symbol pull).mp hlocated
    obtain ⟨arm, harm⟩ := hbacked.armed (List.mem_of_find?_eq_some hfound)
    rw [hgone] at harm
    cases harm
  · cases hanswer

theorem applyReward_of_missing {decision : DecisionId}
    (hmissing : registry.locate? decision = none) (outcome : Outcome) (halfLife : Span)
    (now : Instant) :
    registry.applyReward decision outcome halfLife now =
      .ok (registry, .error (.unknownDecision decision)) := by
  simp only [applyReward, hmissing]

theorem logPull_refused {id : ObjectId} {context : Context} {decision : DecisionId}
    {halfLife : Span} {now : Instant} {refusal : Refusal}
    (hlog : registry.logPull id context decision halfLife now = .ok (next, .error refusal)) :
    next = registry ∧ registry.arms.find? id = none ∧ refusal = .unknownArm id := by
  unfold logPull at hlog
  cases hfound : registry.arms.find? id with
  | none =>
    simp only [hfound, Except.ok.injEq, Prod.mk.injEq, Except.error.injEq] at hlog
    exact ⟨hlog.1.symm, rfl, hlog.2.symm⟩
  | some arm =>
    simp only [hfound, Fault.bind_eq_ok_iff, Fault.pure_eq_ok_iff, Prod.mk.injEq] at hlog
    obtain ⟨stats, -, -, hanswer⟩ := hlog
    cases hanswer

theorem setStatus_refused_iff {id : ObjectId} {status : ArmStatus} {now : Instant}
    {refusal : Refusal} :
    registry.setStatus id status now = (next, .error refusal) ↔
      next = registry ∧ registry.arms.find? id = none ∧ refusal = .unknownArm id := by
  cases hfound : registry.arms.find? id with
  | none => simp [setStatus, hfound, eq_comm]
  | some arm => simp [setStatus, hfound]

/-- An operator's change of a preset is refused exactly where no arm on record offers it. -/
theorem setPresetStatus_refused_iff {preset : ObjectId} {status : ArmStatus} {now : Instant}
    {refusal : Refusal} :
    registry.setPresetStatus preset status now = (next, .error refusal) ↔
      next = registry ∧
        (∀ id arm, registry.arms.find? id = some arm → arm.preset ≠ preset) ∧
        refusal = .unknownPreset preset := by
  have huntouched : (registry.arms.values.filter fun arm => arm.preset = preset).length = 0 ↔
      ∀ id arm, registry.arms.find? id = some arm → arm.preset ≠ preset := by
    simp only [List.length_eq_zero_iff, List.filter_eq_nil_iff, Table.mem_values_iff,
      decide_eq_true_eq, forall_exists_index]
    exact forall_comm
  rw [← huntouched]
  dsimp only [setPresetStatus]
  split
  · next hzero =>
    simp only [Prod.mk.injEq, Except.error.injEq, hzero, true_and]
    exact and_congr eq_comm eq_comm
  · next hsome => simp [hsome]

end Registry

namespace Arena

variable {settings : Settings.Selection} {seeding : Seeding} {now : Instant} {contest : Contest}
  {context : Context} {arena next : Arena}

/-- Every arm that is offered is on record under its own identifier. -/
theorem find?_of_offered (hkeyed : arena.registry.Keyed) {arm : Arm}
    (harm : arm ∈ arena.offered settings contest now) :
    arena.registry.arms.find? arm.id = some arm := by
  obtain ⟨hlisted, -⟩ := (mem_offered_iff settings contest now arena arm).mp harm
  obtain ⟨id, -, hfound⟩ := List.mem_filterMap.mp hlisted
  rwa [hkeyed hfound]

/-- Committing to an arm on record is never refused. -/
theorem commit_ne_refused {arm : Arm} (hfound : arena.registry.arms.find? arm.id = some arm)
    (symbol : String) (refusal : Refusal) :
    arena.commit settings now symbol arm context ≠ .ok (next, .error refusal) := by
  intro hcommit
  simp only [commit, Fault.bind_eq_ok_iff, Prod.exists] at hcommit
  obtain ⟨registry, logged, hlog, hcommit⟩ := hcommit
  cases logged with
  | error cause =>
    obtain ⟨-, hmissing, -⟩ := Registry.logPull_refused hlog
    exact Option.some_ne_none arm (hfound.symm.trans hmissing)
  | ok pull =>
    simp only [Fault.bind_eq_ok_iff, Fault.pure_eq_ok_iff, Prod.mk.injEq] at hcommit
    obtain ⟨charged, -, -, hanswer⟩ := hcommit
    cases hanswer

/-- A selection is refused only if selection is disabled or nothing is offered, and then without
effect: once an arm is chosen, there is one to log. -/
theorem select_refused (hkeyed : arena.registry.Keyed) {refusal : Refusal}
    (hselect : arena.select settings seeding now contest context = .ok (next, .error refusal)) :
    next = arena ∧
      (settings.enabled = false ∧ refusal = .selectionDisabled ∨
        settings.enabled = true ∧ arena.offered settings contest now = [] ∧
          refusal = .noEligibleArm contest) := by
  cases henabled : settings.enabled with
  | false =>
    rw [select_of_disabled henabled] at hselect
    cases hselect
    exact ⟨rfl, .inl ⟨rfl, rfl⟩⟩
  | true =>
    by_cases hoffered : arena.offered settings contest now = []
    · rw [select_of_nothing_offered henabled hoffered] at hselect
      cases hselect
      exact ⟨rfl, .inr ⟨rfl, hoffered, rfl⟩⟩
    · obtain ⟨generator, arm, harm, hcommit⟩ :=
        select_of_offered seeding context henabled hoffered
      have hfound := find?_of_offered hkeyed harm
      rw [hcommit] at hselect
      refine absurd hselect (commit_ne_refused ?_ contest.symbol refusal)
      exact hfound

end Arena

/-- Whether a command may be refused. -/
def Command.refusable : Command → Bool
  | .select .. | .recordOutcome .. | .recordTrade .. | .setStatus .. | .setPresetStatus ..
  | .logPull .. | .applyReward .. => true
  | _ => false

theorem Governor.refusable_of_refused {governor next : Governor} {command : Command}
    {refusal : Refusal} (hstep : governor.step command = .ok (next, .error refusal)) :
    command.refusable = true := by
  cases command with
  | select | recordOutcome | recordTrade | setStatus | setPresetStatus | logPull | applyReward =>
    rfl
  | advance | fill | priceTick | chargeLedger | pruneExpired =>
    simp only [step, answering, Fault.bind_eq_ok_iff, Except.ok.injEq, Prod.mk.injEq] at hstep
    obtain ⟨_, -, -, hanswer⟩ := hstep
    cases hanswer
  | _ =>
    simp only [step, answering, Except.ok.injEq, Prod.mk.injEq] at hstep
    obtain ⟨-, hanswer⟩ := hstep
    cases hanswer

theorem eq_error_of_map {α : Type} {reply : α → Reply} {result : Except Refusal α}
    {refusal : Refusal} (hmap : result.map reply = .error refusal) : result = .error refusal := by
  cases result with
  | error cause =>
    cases hmap
    rfl
  | ok value => cases hmap

/-- A step of the arena that is refused has a cause and no effect. -/
theorem ArenaStep.refused {governor : Governor} {command : Command}
    {answer : Except Refusal Reply} {arena : Arena} {refusal : Refusal}
    (hstep : ArenaStep governor command answer arena) (hbacked : governor.registry.Backed)
    (hrefusable : command.refusable = true) (hanswer : answer = .error refusal) :
    arena = governor.arena ∧ governor.Refuses command refusal := by
  cases hstep with
  | ensureArms | restoreArm | resetArms | chargeLedger | seedLedger => cases hrefusable
  | spared hspared =>
    cases command with
    | select | recordOutcome | recordTrade | setStatus | setPresetStatus | logPull
    | applyReward => cases hspared
    | _ => cases hrefusable
  | prune hcutoff =>
    cases command with
    | prunePulls | pruneExpired => cases hrefusable
    | _ => cases hcutoff
  | @select contest context _ result hselect =>
    rw [eq_error_of_map hanswer] at hselect
    obtain ⟨rfl, ⟨hdisabled, rfl⟩ | ⟨henabled, hnone, rfl⟩⟩ :=
      Arena.select_refused hbacked.keyed hselect
    · exact ⟨rfl, .disabled contest context hdisabled⟩
    · exact ⟨rfl, .exhausted contest context henabled hnone⟩
  | report hreport hrecord =>
    rw [eq_error_of_map hanswer] at hrecord
    obtain ⟨-, -, hnone⟩ | ⟨usable, registry, result, husable, happly, rfl, hresult⟩ :=
      Arena.recordOutcome_cases hrecord
    · cases hnone
    · cases result with
      | ok pull => cases hresult
      | error cause =>
        cases hresult
        obtain ⟨rfl, hmissing, rfl⟩ := Registry.applyReward_refused hbacked happly
        exact ⟨rfl, .report hreport (by rw [husable]; rfl) hmissing⟩
  | setStatus id status =>
    obtain ⟨hsame, hmissing, rfl⟩ := Registry.setStatus_refused_iff.mp
      (Prod.ext rfl (eq_error_of_map hanswer))
    exact ⟨congrArg (fun registry => { governor.arena with registry }) hsame,
      .setStatus status hmissing⟩
  | setPresetStatus preset status =>
    obtain ⟨hsame, hnone, rfl⟩ := Registry.setPresetStatus_refused_iff.mp
      (Prod.ext rfl (eq_error_of_map hanswer))
    exact ⟨congrArg (fun registry => { governor.arena with registry }) hsame,
      .setPresetStatus status hnone⟩
  | @logPull id decision context halfLife time _ result hlog =>
    rw [eq_error_of_map hanswer] at hlog
    obtain ⟨rfl, hmissing, rfl⟩ := Registry.logPull_refused hlog
    exact ⟨rfl, .logPull decision context halfLife time hmissing⟩
  | @applyReward decision outcome halfLife time _ result happly =>
    rw [eq_error_of_map hanswer] at happly
    obtain ⟨rfl, hmissing, rfl⟩ := Registry.applyReward_refused hbacked happly
    exact ⟨rfl, .applyReward outcome halfLife time hmissing⟩

theorem Governor.refused_of_step {governor next : Governor} {command : Command}
    {refusal : Refusal} (hbacked : governor.registry.Backed)
    (hstep : governor.step command = .ok (next, .error refusal)) :
    next = governor ∧ governor.Refuses command refusal := by
  have hrefusable := refusable_of_refused hstep
  obtain ⟨harena, hcause⟩ := (arenaStep_of_step hstep).1.refused hbacked hrefusable rfl
  have hpart : command.sparesArena = false := by
    cases command with
    | select | recordOutcome | recordTrade | setStatus | setPresetStatus | logPull
    | applyReward => rfl
    | _ => cases hrefusable
  have hcommand : ∀ now, command ≠ .pruneExpired now := by
    rintro now rfl
    cases hrefusable
  refine ⟨?_, hcause⟩
  rw [eq_withArena_of_step hpart hcommand hstep, harena]

theorem Governor.Refuses.step_eq {governor : Governor} {command : Command} {refusal : Refusal}
    (hrefuses : governor.Refuses command refusal) :
    governor.step command = .ok (governor, .error refusal) := by
  cases hrefuses with
  | disabled contest context hdisabled =>
    rw [step, select, tryArena, Arena.select_of_disabled hdisabled]
    rfl
  | exhausted contest context henabled hnone =>
    rw [step, select, tryArena, Arena.select_of_nothing_offered henabled hnone]
    rfl
  | @setStatus id status hmissing =>
    have hrefused : governor.registry.setStatus id status governor.clock =
        (governor.registry, .error (.unknownArm id)) :=
      Registry.setStatus_refused_iff.mpr ⟨rfl, hmissing, rfl⟩
    rw [step, withRegistry, withArena, Arena.withRegistry]
    rw [show governor.arena.registry.setStatus id status governor.clock = _ from hrefused]
    rfl
  | @setPresetStatus preset status hnone =>
    have hrefused : governor.registry.setPresetStatus preset status governor.clock =
        (governor.registry, .error (.unknownPreset preset)) :=
      Registry.setPresetStatus_refused_iff.mpr ⟨rfl, hnone, rfl⟩
    rw [step, withRegistry, withArena, Arena.withRegistry]
    rw [show governor.arena.registry.setPresetStatus preset status governor.clock = _ from hrefused]
    rfl
  | logPull decision context halfLife time hmissing =>
    rw [step, tryRegistry_eq_ok_iff.mpr ⟨_, Registry.logPull_of_missing hmissing _ _ _ _, rfl⟩]
    rfl
  | applyReward outcome halfLife time hmissing =>
    rw [step, tryRegistry_eq_ok_iff.mpr ⟨_, Registry.applyReward_of_missing hmissing _ _ _, rfl⟩]
    rfl
  | @report _ decision outcome hreport husable hmissing =>
    obtain ⟨usable, husable⟩ := Option.isSome_iff_exists.mp husable
    have hrecord : governor.recordOutcome decision outcome =
        .ok (governor, .error (.unknownDecision decision)) := by
      refine recordOutcome_eq_ok_iff.mpr ⟨governor.arena, ?_, rfl⟩
      have hmissing : governor.arena.registry.locate? decision = none := hmissing
      simp only [Arena.recordOutcome, husable, Arena.tryRegistry,
        Registry.applyReward_of_missing hmissing]
      rfl
    exact step_of_report hreport hrecord

/-- After every history, whatever arms it restored and whatever decisions it repeated, a command
is refused exactly where it has a cause, and a refusal changes nothing.  In particular no decision
is ever resolved, whatever the arguments, and then refused for want of its arm. -/
theorem refusal_changes_nothing {settings : Settings} {entropy : Seeding} {notifier : Notifier}
    {clock : Instant} {start governor : Governor} {turns : List Turn}
    (hcreate : Governor.create settings entropy notifier clock = .ok start)
    (hhistory : History start turns governor) :
    (∀ command next refusal, governor.step command = .ok (next, .error refusal) ↔
      next = governor ∧ governor.Refuses command refusal) ∧
    ∀ decision outcome halfLife now registry id,
      governor.registry.applyReward decision outcome halfLife now ≠
        .ok (registry, .error (.unknownArm id)) := by
  obtain ⟨-, -, hempty⟩ := Governor.create_eq_ok hcreate
  have hbacked := hhistory.backed hempty
  refine ⟨fun command next refusal => ⟨Governor.refused_of_step hbacked, ?_⟩, ?_⟩
  · rintro ⟨rfl, hrefuses⟩
    exact hrefuses.step_eq
  · intro decision outcome halfLife now registry id happly
    obtain ⟨-, -, hcause⟩ := Registry.applyReward_refused hbacked happly
    cases hcause

/-- An arm that was moved to another contest, with pulls of one decision under both symbols: a
decision that neither of them is of is refused, and nothing changes. -/
theorem refusal_changes_nothing_after_move :
    ∃ start turns governor,
      Governor.create {} 0 .log ⟨0⟩ = .ok start ∧ History start turns governor ∧
      governor.registry.idsOf ⟨"BTC", "UP", .buy⟩ = [.given ⟨1⟩] ∧
      governor.registry.idsOf ⟨"ETH", "UP", .buy⟩ = [.given ⟨1⟩] ∧
      (governor.registry.historyOf "BTC").map Pull.decision = [.given "twice"] ∧
      (governor.registry.historyOf "ETH").map Pull.decision = [.given "twice"] ∧
      governor.step (.applyReward (.given "never") ⟨1.0, 0.0, 0.0, 0.0⟩ ⟨0⟩ ⟨0⟩) =
        .ok (governor, .error (.unknownDecision (.given "never"))) ∧
      ∀ registry id, governor.registry.applyReward (.given "twice") ⟨1.0, 0.0, 0.0, 0.0⟩ ⟨0⟩ ⟨0⟩ ≠
        .ok (registry, .error (.unknownArm id)) := by
  let arm (symbol : String) : Arm :=
    .create (.given ⟨1⟩) ⟨symbol, "UP", .buy⟩ ⟨.given ⟨9⟩, .baseline⟩ ⟨0⟩
  let log : Command := .logPull (.given ⟨1⟩) (.given "twice") .empty ⟨0⟩ ⟨0⟩
  obtain ⟨start, turns, governor, hcreate, hhistory, -, hcheck⟩ :=
    Governor.exists_history_of_replays {}
      [.restoreArm (arm "BTC"), log, .restoreArm (arm "ETH"), log] (fun _ governor =>
        governor.registry.idsOf ⟨"BTC", "UP", .buy⟩ == [.given ⟨1⟩] &&
        governor.registry.idsOf ⟨"ETH", "UP", .buy⟩ == [.given ⟨1⟩] &&
        (governor.registry.historyOf "BTC").map Pull.decision == [.given "twice"] &&
        (governor.registry.historyOf "ETH").map Pull.decision == [.given "twice"] &&
        (governor.registry.locate? (.given "never")).isNone)
      (by decide +kernel)
  simp only [Bool.and_eq_true, beq_iff_eq, Option.isNone_iff_eq_none] at hcheck
  obtain ⟨⟨⟨⟨hbtc, heth⟩, hfirst⟩, hsecond⟩, hmissing⟩ := hcheck
  obtain ⟨hrefused, harmed⟩ := refusal_changes_nothing hcreate hhistory
  refine ⟨start, turns, governor, hcreate, hhistory, hbtc, heth, hfirst, hsecond, ?_, ?_⟩
  · exact (hrefused _ _ _).mpr ⟨rfl, .applyReward _ _ _ hmissing⟩
  · exact fun registry id => harmed _ _ _ _ registry id

end ExposureControl
