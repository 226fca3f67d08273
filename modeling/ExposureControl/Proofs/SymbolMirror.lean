import ExposureControl.Proofs.ArmOrigin
import ExposureControl.Proofs.Filing
import ExposureControl.Proofs.Renaming

/-!
# The mirror of a symbol

A registry mirrors another one for a symbol if it has what the other one has of the symbol, under
the names of the symbol's share, and nothing of any other symbol that could be found under these
names.  A call that concerns the symbol keeps the mirror if it is made on both sides, under the
names, and both sides answer alike.
-/

namespace ExposureControl

namespace Registry

/-- Whether `reduced` has what `full` has of a symbol, renamed. -/
structure Mirrors (shares : Shares) (symbol : String) (full reduced : Registry) : Prop where
  idsOf : ∀ contest, contest.symbol = symbol →
    reduced.idsOf contest = (full.idsOf contest).map shares.names.ofArmId
  arms : ∀ id, reduced.arms.find? (shares.names.ofArmId id) =
    ((full.arms.find? id).filter fun arm => arm.contest.symbol = symbol).map shares.names.ofArm
  history : reduced.historyOf symbol = (full.historyOf symbol).map shares.names.ofPull
  others : ∀ other, other ≠ symbol → reduced.historyOf other = []
  decisions : ∀ decision, reduced.decisions.find? (shares.names.ofDecision decision) =
    (full.decisions.find? decision).filter fun filed => filed = symbol
  ledger : reduced.ledgers.find? symbol = full.ledgers.find? symbol
  armsDrawn : reduced.armsDrawn = shares.arms.rank full.armsDrawn
  pullsLogged : reduced.pullsLogged = shares.pulls.rank full.pullsLogged

namespace Mirrors

variable {shares : Shares} {symbol : String} {full reduced next : Registry} {contest : Contest}
  {id : ObjectId} {arm : Arm} {decision : DecisionId}

theorem empty (shares : Shares) (symbol : String) :
    Mirrors shares symbol Registry.empty Registry.empty where
  idsOf _ _ := rfl
  arms _ := rfl
  history := rfl
  others _ _ := rfl
  decisions _ := rfl
  ledger := rfl
  armsDrawn := shares.arms.rank_zero.symm
  pullsLogged := shares.pulls.rank_zero.symm

/-! ## What is found -/

theorem find?_own (hmirrors : Mirrors shares symbol full reduced)
    (hfound : full.arms.find? id = some arm) (hown : arm.contest.symbol = symbol) :
    reduced.arms.find? (shares.names.ofArmId id) = some (shares.names.ofArm arm) := by
  rw [hmirrors.arms, hfound, Option.filter_some, if_pos (decide_eq_true hown), Option.map_some]

theorem find?_missing (hmirrors : Mirrors shares symbol full reduced)
    (hmissing : full.arms.find? id = none) :
    reduced.arms.find? (shares.names.ofArmId id) = none := by
  rw [hmirrors.arms, hmissing]
  rfl

theorem armsOf (hmirrors : Mirrors shares symbol full reduced) (hsound : full.Sound)
    (hown : contest.symbol = symbol) :
    reduced.armsOf contest = (full.armsOf contest).map shares.names.ofArm := by
  rw [Registry.armsOf, hmirrors.idsOf contest hown, List.filterMap_map, Registry.armsOf,
    List.map_filterMap]
  apply List.filterMap_congr
  intro id hlisted
  obtain ⟨arm, hfound, rfl⟩ := (hsound.mem_idsOf_iff contest id).mp hlisted
  rw [Function.comp_apply, hmirrors.find?_own hfound hown, hfound, Option.map_some]

theorem armOffering? (hmirrors : Mirrors shares symbol full reduced) (hsound : full.Sound)
    (hown : contest.symbol = symbol) (preset : ObjectId) :
    reduced.armOffering? contest preset =
      (full.armOffering? contest preset).map shares.names.ofArm := by
  rw [Registry.armOffering?, hmirrors.armsOf hsound hown, List.find?_map]
  rfl

/-- The ledger of the symbol reads the same on every day. -/
theorem ledgerOn (hmirrors : Mirrors shares symbol full reduced) (now : Instant) :
    reduced.ledgerOn symbol now = full.ledgerOn symbol now := by
  rw [Registry.ledgerOn, hmirrors.ledger, Registry.ledgerOn]

theorem locate? (hmirrors : Mirrors shares symbol full reduced)
    (hfiled : ∀ filed, full.decisions.find? decision = some filed → filed = symbol) :
    reduced.locate? (shares.names.ofDecision decision) =
      (full.locate? decision).map fun located => (located.1, shares.names.ofPull located.2) := by
  have hpull : (reduced.historyOf symbol).find?
      (fun pull => pull.decision = shares.names.ofDecision decision) =
        ((full.historyOf symbol).find? fun pull => pull.decision = decision).map
          shares.names.ofPull := by
    rw [hmirrors.history, List.find?_map]
    congr 2
    funext pull
    simp [Renaming.ofPull, shares.names.ofDecision_injective.eq_iff]
  rw [Registry.locate?, hmirrors.decisions, Registry.locate?]
  cases hfound : full.decisions.find? decision with
  | none => rfl
  | some filed =>
    obtain rfl := hfiled filed hfound
    rw [Option.filter_some, if_pos (decide_eq_true rfl)]
    simp only [Option.bind_eq_bind, Option.bind_some, hpull]
    cases (full.historyOf filed).find? fun pull => pull.decision = decision <;> rfl

/-! ## Changes of arms -/

/-- Putting an arm of the symbol on record on both sides. -/
theorem find?_insert (hmirrors : Mirrors shares symbol full reduced) (arm : Arm)
    (hown : arm.contest.symbol = symbol) (id other : ObjectId) :
    (reduced.arms.insert (shares.names.ofArmId id) (shares.names.ofArm arm)).find?
        (shares.names.ofArmId other) =
      (((full.arms.insert id arm).find? other).filter
        fun arm => arm.contest.symbol = symbol).map shares.names.ofArm := by
  simp only [Table.find?_insert, shares.names.ofArmId_injective.eq_iff]
  split
  · rw [Option.filter_some, if_pos (decide_eq_true hown), Option.map_some]
  · exact hmirrors.arms other

theorem insertArm (hmirrors : Mirrors shares symbol full reduced) (arm : Arm)
    (hown : arm.contest.symbol = symbol) (id : ObjectId) :
    Mirrors shares symbol { full with arms := full.arms.insert id arm }
      { reduced with
        arms := reduced.arms.insert (shares.names.ofArmId id) (shares.names.ofArm arm) } :=
  { hmirrors with arms := hmirrors.find?_insert arm hown id }

/-- Changing an arm on both sides, whoever it belongs to. -/
theorem changeArm (hmirrors : Mirrors shares symbol full reduced) {change : Arm → Arm}
    (hcontest : ∀ arm, (change arm).contest = arm.contest)
    (hnames : ∀ arm, change (shares.names.ofArm arm) = shares.names.ofArm (change arm))
    (id : ObjectId) :
    Mirrors shares symbol (full.changeArm id change)
      (reduced.changeArm (shares.names.ofArmId id) change) := by
  refine { hmirrors with arms := fun other => ?_ }
  simp only [Registry.changeArm, Table.find?_modify, shares.names.ofArmId_injective.eq_iff]
  split
  · rw [hmirrors.arms]
    cases full.arms.find? id with
    | none => rfl
    | some arm =>
      by_cases hown : arm.contest.symbol = symbol
      · simp [Option.filter_some, hown, hcontest, hnames]
      · simp [Option.filter_some, hown, hcontest]
  · exact hmirrors.arms other

theorem createArm (hmirrors : Mirrors shares symbol full reduced) (hown : contest.symbol = symbol)
    (hdrawn : shares.arms.own (full.armsDrawn + 1) = true) (now : Instant) (offer : Offer) :
    Mirrors shares symbol (full.createArm contest now offer)
      (reduced.createArm contest now offer) := by
  have hname : shares.names.ofArmId (.drawn .arms (full.armsDrawn + 1)) =
      .drawn .arms (reduced.armsDrawn + 1) := by
    rw [hmirrors.armsDrawn, Renaming.ofArmId, Identifier.renumber_drawn]
    exact congrArg (Identifier.drawn Supply.arms) (shares.arms.renumber_succ hdrawn)
  have hmade : shares.names.ofArm (.create (.drawn .arms (full.armsDrawn + 1)) contest offer now) =
      .create (.drawn .arms (reduced.armsDrawn + 1)) contest offer now := by
    rw [← hname]
    rfl
  refine { hmirrors with idsOf := fun other hother => ?_, arms := fun id => ?_, armsDrawn := ?_ }
  · rw [idsOf_createArm, idsOf_createArm]
    split
    · rw [hmirrors.idsOf contest hown, List.map_append, List.map_singleton, hname]
    · exact hmirrors.idsOf other hother
  · have hinserted := hmirrors.find?_insert
      (.create (.drawn .arms (full.armsDrawn + 1)) contest offer now) hown
      (.drawn .arms (full.armsDrawn + 1)) id
    rw [hname, hmade] at hinserted
    exact hinserted
  · rw [Registry.createArm, Registry.createArm, shares.arms.rank_succ_of_own hdrawn,
      hmirrors.armsDrawn]

end Mirrors

/-! ## Making sure of a contest's arms -/

theorem armsDrawn_le_settleOffer (contest : Contest) (now : Instant) (offer : Offer)
    (registry : Registry) :
    registry.armsDrawn ≤ (registry.settleOffer contest now offer).armsDrawn := by
  unfold settleOffer
  split
  · exact Nat.le_succ _
  · split <;> exact Nat.le_refl _

theorem armsDrawn_le_settleOffers (contest : Contest) (now : Instant) (offers : List Offer)
    (registry : Registry) :
    registry.armsDrawn ≤ (offers.foldl (settleOffer contest now) registry).armsDrawn := by
  induction offers generalizing registry with
  | nil => exact Nat.le_refl _
  | cons offer rest ih => exact Nat.le_trans (armsDrawn_le_settleOffer contest now offer _) (ih _)

theorem armsDrawn_le_ensureArms (contest : Contest) (offers : List Offer) (now : Instant)
    (registry : Registry) :
    registry.armsDrawn ≤ (registry.ensureArms contest offers now).1.armsDrawn :=
  armsDrawn_le_settleOffers contest now offers
    { registry with index := registry.index.update contest [] fun ids => ids }

namespace Mirrors

variable {shares : Shares} {symbol : String} {full reduced next : Registry} {contest : Contest}
  {id : ObjectId} {arm : Arm} {decision : DecisionId}

theorem settleOffer (hmirrors : Mirrors shares symbol full reduced) (hsound : full.Sound)
    (hown : contest.symbol = symbol) (now : Instant) (offer : Offer)
    (hdrawn : full.armsDrawn < (full.settleOffer contest now offer).armsDrawn →
      shares.arms.own (full.armsDrawn + 1) = true) :
    Mirrors shares symbol (full.settleOffer contest now offer)
      (reduced.settleOffer contest now offer) := by
  have hoffering := hmirrors.armOffering? hsound hown offer.preset
  unfold Registry.settleOffer at hdrawn ⊢
  cases hfound : full.armOffering? contest offer.preset with
  | none =>
    rw [hfound] at hoffering hdrawn
    rw [hoffering]
    exact hmirrors.createArm hown (hdrawn (Nat.lt_succ_self _)) now offer
  | some arm =>
    rw [hfound] at hoffering
    rw [hoffering]
    rw [Option.map_some]
    by_cases hrole : arm.role = offer.role
    · have hrenamed : (shares.names.ofArm arm).role = offer.role := hrole
      dsimp only
      rw [if_pos hrole, if_pos hrenamed]
      exact hmirrors
    · have hrenamed : (shares.names.ofArm arm).role ≠ offer.role := hrole
      dsimp only
      rw [if_neg hrole, if_neg hrenamed]
      apply hmirrors.changeArm
      · exact fun _ => rfl
      · exact fun _ => rfl

theorem settleOffers (hmirrors : Mirrors shares symbol full reduced) (hsound : full.Sound)
    (hown : contest.symbol = symbol) (now : Instant) (offers : List Offer)
    (hdrawn : ∀ serial, full.armsDrawn < serial →
      serial ≤ (offers.foldl (Registry.settleOffer contest now) full).armsDrawn →
      shares.arms.own serial = true) :
    Mirrors shares symbol (offers.foldl (Registry.settleOffer contest now) full)
      (offers.foldl (Registry.settleOffer contest now) reduced) := by
  induction offers generalizing full reduced with
  | nil => exact hmirrors
  | cons offer rest ih =>
    rw [List.foldl_cons] at hdrawn
    have hfirst := armsDrawn_le_settleOffer contest now offer full
    have hrest := armsDrawn_le_settleOffers contest now rest (full.settleOffer contest now offer)
    apply ih
    · exact hmirrors.settleOffer hsound hown now offer fun hmore =>
        hdrawn _ (Nat.lt_succ_self _) (Nat.le_trans hmore hrest)
    · exact (settleOffer_spec hsound contest now offer).1
    · exact fun serial hlt hle => hdrawn serial (Nat.lt_of_le_of_lt hfirst hlt) hle

/-- Making sure of the arms of a contest of the symbol. -/
theorem ensureArms (hmirrors : Mirrors shares symbol full reduced) (hsound : full.Sound)
    (hown : contest.symbol = symbol) (offers : List Offer) (now : Instant)
    (hdrawn : ∀ serial, full.armsDrawn < serial →
      serial ≤ (full.ensureArms contest offers now).1.armsDrawn →
      shares.arms.own serial = true) :
    Mirrors shares symbol (full.ensureArms contest offers now).1
        (reduced.ensureArms contest offers now).1 ∧
      (reduced.ensureArms contest offers now).2 =
        (full.ensureArms contest offers now).2.map shares.names.ofArm := by
  have hopened : ∀ registry : Registry, SameArms Arm.identity registry
      { registry with index := registry.index.update contest [] fun ids => ids } :=
    sameArms_open Arm.identity contest
  have hopenedMirrors : Mirrors shares symbol
      { full with index := full.index.update contest [] fun ids => ids }
      { reduced with index := reduced.index.update contest [] fun ids => ids } := by
    refine { hmirrors with idsOf := fun other hother => ?_ }
    rw [(hopened reduced).idsOf, (hopened full).idsOf, hmirrors.idsOf other hother]
  have hsettled :=
    hopenedMirrors.settleOffers ((hopened full).sound hsound) hown now offers hdrawn
  exact ⟨hsettled, hsettled.armsOf (ensureArms_spec hsound contest offers now).1 hown⟩

/-! ## Statuses and statistics -/

/-- Blocking or unblocking an arm that no other symbol has. -/
theorem setStatus (hmirrors : Mirrors shares symbol full reduced)
    (hown : ∀ arm, full.arms.find? id = some arm → arm.contest.symbol = symbol)
    (status : ArmStatus) (now : Instant) :
    Mirrors shares symbol (full.setStatus id status now).1
        (reduced.setStatus (shares.names.ofArmId id) status now).1 ∧
      (reduced.setStatus (shares.names.ofArmId id) status now).2 =
        shares.names.ofResult shares.names.ofArm (full.setStatus id status now).2 := by
  unfold Registry.setStatus
  cases hfound : full.arms.find? id with
  | none =>
    rw [hmirrors.find?_missing hfound]
    exact ⟨hmirrors, rfl⟩
  | some arm =>
    rw [hmirrors.find?_own hfound (hown arm hfound)]
    exact ⟨hmirrors.insertArm { arm with status, updatedAt := now } (hown arm hfound) id, rfl⟩

/-- Blocking or unblocking a preset, whatever symbols have arms of it. -/
theorem setPresetStatus (hmirrors : Mirrors shares symbol full reduced) (preset : ObjectId)
    (status : ArmStatus) (now : Instant) :
    Mirrors shares symbol (full.setPresetStatus preset status now).1
      (reduced.setPresetStatus preset status now).1 := by
  have hfull := find?_setPresetStatus preset status now full
  have hreduced := find?_setPresetStatus preset status now reduced
  obtain ⟨arms, harms⟩ := exists_setPresetStatus preset status now full
  obtain ⟨arms', harms'⟩ := exists_setPresetStatus preset status now reduced
  rw [harms] at hfull ⊢
  rw [harms'] at hreduced ⊢
  refine { hmirrors with arms := fun id => ?_ }
  rw [hreduced, hfull, hmirrors.arms]
  cases full.arms.find? id with
  | none => rfl
  | some arm =>
    by_cases hown : arm.contest.symbol = symbol
    · by_cases hpreset : arm.preset = preset
      · simp [Option.filter_some, hown, hpreset, Renaming.ofArm]
      · simp [Option.filter_some, hown, hpreset]
    · by_cases hpreset : arm.preset = preset
      · simp [Option.filter_some, hown, hpreset]
      · simp [Option.filter_some, hown, hpreset]

theorem resetStats (hmirrors : Mirrors shares symbol full reduced)
    (hown : contest.symbol = symbol) (now : Instant) :
    Mirrors shares symbol (full.resetStats contest now).1 (reduced.resetStats contest now).1 ∧
      (reduced.resetStats contest now).2 = (full.resetStats contest now).2 := by
  have hcleared : ∀ (ids : List ObjectId) {full reduced : Registry},
      Mirrors shares symbol full reduced →
      Mirrors shares symbol
        (ids.foldl (fun registry id => registry.changeArm id (Arm.cleared now)) full)
        ((ids.map shares.names.ofArmId).foldl
          (fun registry id => registry.changeArm id (Arm.cleared now)) reduced) := by
    intro ids
    induction ids with
    | nil => exact fun hmirrors => hmirrors
    | cons id rest ih =>
      intro full reduced hmirrors
      apply ih
      apply hmirrors.changeArm
      · exact fun _ => rfl
      · exact fun _ => rfl
  have hids := hmirrors.idsOf contest hown
  have hcontest := hcleared (full.idsOf contest) hmirrors
  rw [← hids] at hcontest
  refine ⟨hcontest, ?_⟩
  rw [Registry.resetStats, Registry.resetStats, hids, List.length_map]

/-! ## Pulls -/

/-- Putting a pull of an arm of the symbol on record, with the arm as it is then. -/
theorem withPull (hmirrors : Mirrors shares symbol full reduced) (arm : Arm) (pull : Pull)
    (harm : arm.contest.symbol = symbol) (hpull : pull.contest.symbol = symbol)
    (hlogged : shares.pulls.own (full.pullsLogged + 1) = true) :
    Mirrors shares symbol (full.withPull arm pull)
      (reduced.withPull (shares.names.ofArm arm) (shares.names.ofPull pull)) := by
  have hrenamed : (shares.names.ofPull pull).contest.symbol = symbol := hpull
  refine { hmirrors with
    arms := hmirrors.find?_insert arm harm arm.id
    history := ?_
    others := fun other hother => ?_
    decisions := fun decision => ?_
    pullsLogged := ?_ }
  · rw [historyOf_withPull, historyOf_withPull, if_pos hpull.symm, if_pos hrenamed.symm,
      hmirrors.history, List.map_append, List.map_singleton]
  · rw [historyOf_withPull, hrenamed, if_neg hother, hmirrors.others other hother]
  · simp only [Registry.withPull, Table.find?_insert, Renaming.ofPull,
      shares.names.ofDecision_injective.eq_iff]
    split
    · rw [Option.filter_some, hpull, if_pos (decide_eq_true rfl)]
    · exact hmirrors.decisions decision
  · rw [Registry.withPull, Registry.withPull, shares.pulls.rank_succ_of_own hlogged,
      hmirrors.pullsLogged]

/-- The pull that is logged next is logged under the next serial number. -/
theorem nextPull (hmirrors : Mirrors shares symbol full reduced)
    (hlogged : shares.pulls.own (full.pullsLogged + 1) = true) (arm : Arm) (context : Context)
    (decision : DecisionId) (now : Instant) :
    reduced.nextPull (shares.names.ofArm arm) context (shares.names.ofDecision decision) now =
      shares.names.ofPull (full.nextPull arm context decision now) := by
  have hserial : reduced.pullsLogged + 1 = shares.names.pulls (full.pullsLogged + 1) := by
    rw [hmirrors.pullsLogged]
    exact (shares.pulls.renumber_succ hlogged).symm
  rw [Registry.nextPull, hserial]
  rfl

/-- Logging a pull of an arm that no other symbol has. -/
theorem logPull (hmirrors : Mirrors shares symbol full reduced) (hsound : full.Sound)
    (hsound' : reduced.Sound)
    (hown : ∀ arm, full.arms.find? id = some arm → arm.contest.symbol = symbol)
    (hlogged : full.pullsLogged < next.pullsLogged →
      shares.pulls.own (full.pullsLogged + 1) = true)
    {context : Context} {halfLife : Span} {now : Instant} {answer : Except Refusal Pull}
    (hlog : full.logPull id context decision halfLife now = .ok (next, answer)) :
    ∃ reducedNext,
      reduced.logPull (shares.names.ofArmId id) context (shares.names.ofDecision decision) halfLife
        now = .ok (reducedNext, shares.names.ofResult shares.names.ofPull answer) ∧
      Mirrors shares symbol next reducedNext := by
  obtain ⟨hmissing, rfl, rfl⟩ | ⟨arm, hfound, hroom, rfl, rfl⟩ := logPull_spec hsound hlog
  · exact ⟨reduced, logPull_of_missing (hmirrors.find?_missing hmissing) .., hmirrors⟩
  · have hlogged := hlogged (Nat.lt_succ_self _)
    have hpull := hmirrors.nextPull hlogged arm context decision now
    have hlog' := logPull_of_lt hsound' (hmirrors.find?_own hfound (hown arm hfound)) hroom context
      (shares.names.ofDecision decision) halfLife now
    rw [hpull] at hlog'
    exact ⟨_, hlog', hmirrors.withPull (arm.pulled halfLife now) _ (hown arm hfound)
      (hown arm hfound) hlogged⟩

end Mirrors

/-- Resolving the renamed decision in a renamed history. -/
theorem resolveIn_map (names : Renaming) (decision : DecisionId) (resolved : Pull)
    (pulls : List Pull) :
    resolveIn (names.ofDecision decision) (names.ofPull resolved) (pulls.map names.ofPull) =
      (resolveIn decision resolved pulls).map names.ofPull := by
  induction pulls with
  | nil => rfl
  | cons pull rest ih =>
    have hsame : (names.ofPull pull).decision = names.ofDecision decision ↔
        pull.decision = decision := names.ofDecision_injective.eq_iff
    simp only [List.map_cons, resolveIn, hsame]
    split
    · rfl
    · rw [ih, List.map_cons]

namespace Mirrors

variable {shares : Shares} {symbol : String} {full reduced next : Registry} {contest : Contest}
  {id : ObjectId} {arm : Arm} {decision : DecisionId}

theorem withOutcome (hmirrors : Mirrors shares symbol full reduced) (resolved : Pull) :
    Mirrors shares symbol (full.withOutcome symbol resolved)
      (reduced.withOutcome symbol (shares.names.ofPull resolved)) := by
  refine { hmirrors with history := ?_, others := fun other hother => ?_ }
  · rw [historyOf_withOutcome, historyOf_withOutcome, if_pos rfl, if_pos rfl, hmirrors.history]
    exact resolveIn_map shares.names resolved.decision resolved (full.historyOf symbol)
  · rw [historyOf_withOutcome, if_neg hother, hmirrors.others other hother]

/-- Resolving a decision that no other symbol has. -/
theorem applyReward (hmirrors : Mirrors shares symbol full reduced)
    (hfiled : ∀ filed, full.decisions.find? decision = some filed → filed = symbol)
    (harmed : ∀ pull ∈ full.historyOf symbol,
      ∃ arm, full.arms.find? pull.arm = some arm ∧ arm.contest.symbol = symbol)
    {outcome : Outcome} {halfLife : Span} {now : Instant} {answer : Except Refusal Pull}
    (happly : full.applyReward decision outcome halfLife now = .ok (next, answer)) :
    ∃ reducedNext,
      reduced.applyReward (shares.names.ofDecision decision) outcome halfLife now =
        .ok (reducedNext, shares.names.ofResult shares.names.ofPull answer) ∧
      Mirrors shares symbol next reducedNext := by
  have hlocate := hmirrors.locate? hfiled
  obtain ⟨hlocated, rfl, rfl⟩ | ⟨located, pull, hlocated, hresolution⟩ :=
    applyReward_cases happly
  · rw [hlocated] at hlocate
    exact ⟨reduced, by rw [Registry.applyReward, hlocate]; rfl, hmirrors⟩
  · obtain ⟨hdecision, hfound⟩ := (locate?_eq_some_iff decision located pull).mp hlocated
    obtain rfl := hfiled located hdecision
    have hpull := List.mem_of_find?_eq_some hfound
    obtain rfl : pull.decision = decision := by simpa using List.find?_some hfound
    rw [hlocated, Option.map_some] at hlocate
    have hsame : (shares.names.ofPull pull).resolved = pull.resolved := rfl
    obtain ⟨hresolved, rfl, rfl⟩ | ⟨-, hmissing, -, -⟩ |
      ⟨hresolved, arm, stats, harm, hstats, rfl, rfl⟩ := hresolution
    · refine ⟨reduced, ?_, hmirrors⟩
      simp only [Registry.applyReward, hlocate, hsame, hresolved, if_true]
      rfl
    · obtain ⟨arm, harm, -⟩ := harmed pull hpull
      cases hmissing.symm.trans harm
    · obtain ⟨known, hknown, hown⟩ := harmed pull hpull
      obtain rfl := Option.some.inj (harm.symm.trans hknown)
      have hcredited := (hmirrors.withOutcome { pull with outcome := some outcome }).insertArm
        { arm with stats, updatedAt := now } hown pull.arm
      refine ⟨_, ?_, hcredited⟩
      have hfoundArm : reduced.arms.find? (shares.names.ofPull pull).arm =
          some (shares.names.ofArm arm) := hmirrors.find?_own harm hown
      simp only [Registry.applyReward, hlocate, hsame, hresolved, Bool.false_eq_true, if_false,
        hfoundArm, Renaming.ofArm_stats, hstats]
      rfl

theorem prunePulls (hmirrors : Mirrors shares symbol full reduced) (hfull : full.Filed)
    (cutoff : Instant) :
    Mirrors shares symbol (full.prunePulls cutoff).1 (reduced.prunePulls cutoff).1 := by
  refine { hmirrors with
    history := ?_
    others := fun other hother => ?_
    decisions := fun decision => ?_ }
  · rw [historyOf_prunePulls, historyOf_prunePulls, hmirrors.history, List.filter_map]
    rfl
  · rw [historyOf_prunePulls, hmirrors.others other hother, List.filter_nil]
  · ext filed
    rw [find?_decisions_prunePulls, hmirrors.decisions, Option.filter_eq_some_iff,
      Option.filter_eq_some_iff, find?_decisions_prunePulls, decide_eq_true_eq]
    constructor
    · rintro ⟨⟨hfiled, rfl⟩, hkept⟩
      refine ⟨⟨hfiled, fun other pull hpull hexpired hdecision => ?_⟩, rfl⟩
      -- a pull of the decision is filed under the symbol
      obtain rfl : filed = other :=
        Option.some.inj (hfiled.symm.trans (hdecision ▸ hfull.filed hpull))
      refine hkept filed (shares.names.ofPull pull) ?_ hexpired
        (congrArg shares.names.ofDecision hdecision)
      rw [hmirrors.history]
      exact List.mem_map_of_mem hpull
    · rintro ⟨⟨hfiled, hkept⟩, rfl⟩
      refine ⟨⟨hfiled, rfl⟩, fun other pull hpull hexpired hdecision => ?_⟩
      by_cases hother : other = filed
      · subst hother
        rw [hmirrors.history] at hpull
        obtain ⟨known, hknown, rfl⟩ := List.mem_map.mp hpull
        exact hkept other known hknown hexpired (shares.names.ofDecision_injective hdecision)
      · rw [hmirrors.others other hother] at hpull
        cases hpull

/-! ## Ledgers -/

theorem seedLedger (hmirrors : Mirrors shares symbol full reduced) (ledger : Ledger) :
    Mirrors shares symbol (full.seedLedger symbol ledger) (reduced.seedLedger symbol ledger) := by
  refine { hmirrors with ledger := ?_ }
  simp [Registry.seedLedger]

theorem chargeLedger (hmirrors : Mirrors shares symbol full reduced) {candidate : Bool}
    {now : Instant} (hcharge : full.chargeLedger symbol candidate now = .ok next) :
    ∃ reducedNext, reduced.chargeLedger symbol candidate now = .ok reducedNext ∧
      Mirrors shares symbol next reducedNext := by
  obtain ⟨rfl, hroom⟩ := chargeLedger_eq_ok_iff.mp hcharge
  rw [← hmirrors.ledgerOn now] at hroom ⊢
  exact ⟨_, chargeLedger_eq_ok_iff.mpr ⟨rfl, hroom⟩, hmirrors.seedLedger _⟩

end Mirrors

end Registry

end ExposureControl
