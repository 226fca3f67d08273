import ExposureControl.Proofs.ArenaStep
import ExposureControl.Proofs.PullLog

/-!
# What keeps the records

The records are the pulls, the decisions and the ledgers.  Whatever changes arms alone keeps them,
and of all commands only selections, reports, prunes and direct changes of the records do not.
-/

namespace ExposureControl

namespace Registry

variable {before middle after : Registry}

/-- Two registries with the same pulls on record. -/
structure SamePulls (before after : Registry) : Prop where
  histories : after.histories = before.histories
  decisions : after.decisions = before.decisions

theorem SamePulls.historyOf (hsame : SamePulls before after) (symbol : String) :
    after.historyOf symbol = before.historyOf symbol := by
  rw [Registry.historyOf, hsame.histories, Registry.historyOf]

/-- Two registries that differ in their arms at most. -/
structure SameRecords (before after : Registry) : Prop extends SamePulls before after where
  ledgers : after.ledgers = before.ledgers

namespace SameRecords

theorem refl (registry : Registry) : SameRecords registry registry := ⟨⟨rfl, rfl⟩, rfl⟩

theorem trans (hfirst : SameRecords before middle) (hsecond : SameRecords middle after) :
    SameRecords before after :=
  ⟨⟨hsecond.histories.trans hfirst.histories, hsecond.decisions.trans hfirst.decisions⟩,
    hsecond.ledgers.trans hfirst.ledgers⟩

theorem foldl {α : Type} {change : Registry → α → Registry}
    (hchange : ∀ registry item, SameRecords registry (change registry item)) (items : List α)
    (registry : Registry) : SameRecords registry (items.foldl change registry) := by
  induction items generalizing registry with
  | nil => exact refl registry
  | cons item rest ih => exact (hchange registry item).trans (ih (change registry item))

theorem settleOffer (contest : Contest) (now : Instant) (registry : Registry) (offer : Offer) :
    SameRecords registry (registry.settleOffer contest now offer) := by
  unfold Registry.settleOffer
  split
  · exact ⟨⟨rfl, rfl⟩, rfl⟩
  · split
    · exact refl registry
    · exact ⟨⟨rfl, rfl⟩, rfl⟩

theorem ensureArms (contest : Contest) (offers : List Offer) (now : Instant)
    (registry : Registry) :
    SameRecords registry (registry.ensureArms contest offers now).1 := by
  let opened : Registry :=
    { registry with index := registry.index.update contest [] fun ids => ids }
  have hopened : SameRecords registry opened := ⟨⟨rfl, rfl⟩, rfl⟩
  exact hopened.trans (foldl (settleOffer contest now) offers opened)

theorem restoreArm (arm : Arm) (registry : Registry) :
    SameRecords registry (registry.restoreArm arm) := ⟨⟨rfl, rfl⟩, rfl⟩

theorem ofArms (hchanged : ∃ arms, after = { before with arms }) : SameRecords before after := by
  obtain ⟨arms, rfl⟩ := hchanged
  exact ⟨⟨rfl, rfl⟩, rfl⟩

theorem setStatus (id : ObjectId) (status : ArmStatus) (now : Instant) (registry : Registry) :
    SameRecords registry (registry.setStatus id status now).1 :=
  ofArms (exists_setStatus id status now registry)

theorem setPresetStatus (preset : ObjectId) (status : ArmStatus) (now : Instant)
    (registry : Registry) :
    SameRecords registry (registry.setPresetStatus preset status now).1 :=
  ofArms (exists_setPresetStatus preset status now registry)

theorem resetStats (contest : Contest) (now : Instant) (registry : Registry) :
    SameRecords registry (registry.resetStats contest now).1 :=
  ofArms (exists_resetStats contest now registry)

end SameRecords

theorem pullsLogged_settleOffers (contest : Contest) (now : Instant) (offers : List Offer)
    (registry : Registry) :
    (offers.foldl (settleOffer contest now) registry).pullsLogged = registry.pullsLogged := by
  induction offers generalizing registry with
  | nil => rfl
  | cons offer rest ih =>
    rw [List.foldl_cons, ih]
    unfold settleOffer
    split
    · rfl
    · split <;> rfl

theorem pullsLogged_ensureArms (contest : Contest) (offers : List Offer) (now : Instant)
    (registry : Registry) :
    (registry.ensureArms contest offers now).1.pullsLogged = registry.pullsLogged :=
  pullsLogged_settleOffers contest now offers
    { registry with index := registry.index.update contest [] fun ids => ids }

theorem ledgers_applyReward {decision : DecisionId} {outcome : Outcome} {halfLife : Span}
    {now : Instant} {answer : Except Refusal Pull}
    (happly : before.applyReward decision outcome halfLife now = .ok (after, answer)) :
    after.ledgers = before.ledgers := by
  obtain ⟨-, rfl, -⟩ | ⟨symbol, pull, -, ⟨-, rfl, -⟩ | ⟨-, -, rfl, -⟩ |
    ⟨-, arm, stats, -, -, rfl, -⟩⟩ := applyReward_cases happly
  all_goals rfl

/-! ## One pull more -/

/-- The pull of an arm as it is first logged, if the arm is on record. -/
def pullFor? (serial : Nat) (id : ObjectId) (decision : DecisionId) (context : Context)
    (time : Instant) (registry : Registry) : Option Pull :=
  (registry.arms.find? id).map fun arm =>
    { serial, arm := id, loggedAt := time, decision, context, outcome := none
      contest := arm.contest, role := arm.role }

/-- Whether the records have one pull more, whatever arm was counted for it. -/
structure AddsPull (pull : Pull) (before after : Registry) : Prop where
  samePulls : ∃ arm, SamePulls (before.withPull arm pull) after
  pullsLogged : after.pullsLogged = before.pullsLogged + 1

variable {id : ObjectId} {context : Context} {decision : DecisionId} {pull : Pull}

theorem AddsPull.historyOf (hadds : AddsPull pull before after) (symbol : String) :
    after.historyOf symbol =
      if symbol = pull.contest.symbol then before.historyOf symbol ++ [pull]
      else before.historyOf symbol := by
  obtain ⟨arm, hsame⟩ := hadds.samePulls
  rw [hsame.historyOf, historyOf_withPull]

theorem pullFor?_eq_some {serial : Nat} {time : Instant}
    (hpull : before.pullFor? serial id decision context time = some pull) :
    pull.serial = serial ∧ pull.decision = decision ∧
      (before.arms.find? pull.arm).isSome = true := by
  obtain ⟨arm, hfound, rfl⟩ := Option.map_eq_some_iff.mp hpull
  exact ⟨rfl, rfl, Option.isSome_iff_exists.mpr ⟨arm, hfound⟩⟩

/-- A pull is refused without effect, or it is logged with the next serial number.  This holds of
unsound registries too. -/
theorem adds_of_logPull {halfLife : Span} {time : Instant} {answer : Except Refusal Pull}
    (hlog : before.logPull id context decision halfLife time = .ok (after, answer)) :
    (∃ refusal, answer = .error refusal) ∧ after = before ∨
      ∃ pull, answer = .ok pull ∧
        before.pullFor? (before.pullsLogged + 1) id decision context time = some pull ∧
        AddsPull pull before after := by
  unfold logPull at hlog
  split at hlog
  · simp only [Except.ok.injEq, Prod.mk.injEq] at hlog
    exact .inl ⟨⟨_, hlog.2.symm⟩, hlog.1.symm⟩
  · next arm hfound =>
    simp only [Fault.bind_eq_ok_iff, Fault.pure_eq_ok_iff, Prod.mk.injEq] at hlog
    obtain ⟨stats, -, rfl, rfl⟩ := hlog
    refine .inr ⟨_, rfl, ?_, ⟨arm, rfl, rfl⟩, rfl⟩
    rw [pullFor?, hfound]
    rfl

end Registry

/-- Whether a command keeps the records. -/
def Command.keepsRecords (command : Command) : Bool :=
  command.sparesArena ||
    match command with
    | .ensureArms .. | .restoreArm _ | .setStatus .. | .setPresetStatus .. | .resetArms _ => true
    | _ => false

theorem ArenaStep.sameRecords {governor : Governor} {command : Command}
    {answer : Except Refusal Reply} {arena : Arena}
    (hstep : ArenaStep governor command answer arena) (hkeeps : command.keepsRecords = true) :
    Registry.SameRecords governor.registry arena.registry ∧
      arena.decisionsDrawn = governor.arena.decisionsDrawn := by
  cases hstep with
  | spared => exact ⟨.refl governor.registry, rfl⟩
  | ensureArms contest offers =>
    exact ⟨.ensureArms contest offers governor.clock governor.registry, rfl⟩
  | restoreArm arm => exact ⟨.restoreArm arm governor.registry, rfl⟩
  | setStatus id status => exact ⟨.setStatus id status governor.clock governor.registry, rfl⟩
  | setPresetStatus preset status =>
    exact ⟨.setPresetStatus preset status governor.clock governor.registry, rfl⟩
  | resetArms contest => exact ⟨.resetStats contest governor.clock governor.registry, rfl⟩
  | report hreport =>
    cases command with
    | recordOutcome | recordTrade => cases hkeeps
    | _ => cases hreport
  | prune hcutoff =>
    cases command with
    | prunePulls | pruneExpired => cases hkeeps
    | _ => cases hcutoff
  | select | logPull | applyReward | chargeLedger | seedLedger => cases hkeeps

end ExposureControl
