import ExposureControl.Proofs.OfferSettling
import ExposureControl.Proofs.SymbolArena

/-!
# What other symbols leave alone

A call that concerns another symbol leaves alone what is on record of a symbol: its contests and
arms, its pulls and their decisions, its ledger and its generator.  So a mirror stays one while the
other side is idle.
-/

namespace ExposureControl

namespace Registry

/-- Two registries with the same records of a symbol. -/
structure SameOf (symbol : String) (before after : Registry) : Prop where
  idsOf : ∀ contest, contest.symbol = symbol → after.idsOf contest = before.idsOf contest
  arms : ∀ id, (after.arms.find? id).filter (fun arm => arm.contest.symbol = symbol) =
    (before.arms.find? id).filter fun arm => arm.contest.symbol = symbol
  history : after.historyOf symbol = before.historyOf symbol
  decisions : ∀ decision, (after.decisions.find? decision).filter (fun filed => filed = symbol) =
    (before.decisions.find? decision).filter fun filed => filed = symbol
  ledger : after.ledgers.find? symbol = before.ledgers.find? symbol

namespace SameOf

variable {symbol : String} {registry next : Registry} {contest : Contest} {id : ObjectId}

theorem refl (symbol : String) (registry : Registry) : SameOf symbol registry registry :=
  ⟨fun _ _ => rfl, fun _ => rfl, rfl, fun _ => rfl, rfl⟩

/-- Changing an arm that is not the symbol's, in its own contest. -/
theorem find?_insert (registry : Registry) {arm changed : Arm}
    (hfound : registry.arms.find? id = some arm) (hother : arm.contest.symbol ≠ symbol)
    (hcontest : changed.contest = arm.contest) (other : ObjectId) :
    ((registry.arms.insert id changed).find? other).filter
        (fun arm => arm.contest.symbol = symbol) =
      (registry.arms.find? other).filter fun arm => arm.contest.symbol = symbol := by
  rw [Table.find?_insert]
  split
  · next hid =>
    rw [hid, hfound]
    simp [Option.filter_some, hcontest, hother]
  · rfl

theorem ensureArms (hsound : registry.Sound) (hother : contest.symbol ≠ symbol)
    (offers : List Offer) (now : Instant) :
    SameOf symbol registry (registry.ensureArms contest offers now).1 := by
  have hsettled := ensureArms_settled hsound contest offers now
  have hprovisioned := (ensureArms_spec hsound contest offers now).2
  have hrecords := SameRecords.ensureArms contest offers now registry
  refine ⟨fun own hown => hsettled.others ?_, fun id => ?_, hrecords.historyOf symbol,
    fun decision => by rw [hrecords.decisions], by rw [hrecords.ledgers]⟩
  · rintro rfl
    exact hother hown
  · cases hknown : registry.arms.find? id with
    | none =>
      cases hfound : (registry.ensureArms contest offers now).1.arms.find? id with
      | none => rfl
      | some arm =>
        obtain ⟨rfl, -⟩ := hprovisioned.fresh hknown hfound
        simp [Option.filter_some, hother]
    | some arm =>
      obtain ⟨role, updatedAt, hfound, hsame⟩ := hsettled.kept hknown
      rw [hfound]
      by_cases hown : arm.contest.symbol = symbol
      · obtain ⟨rfl, rfl⟩ := hsame (.inl fun hcontest => hother (hcontest ▸ hown))
        rfl
      · simp [Option.filter_some, hown]

theorem setStatus {arm : Arm} (hfound : registry.arms.find? id = some arm)
    (hother : arm.contest.symbol ≠ symbol) (status : ArmStatus) (now : Instant) :
    SameOf symbol registry (registry.setStatus id status now).1 := by
  rw [Registry.setStatus, hfound]
  exact ⟨fun _ _ => rfl, find?_insert registry hfound hother rfl, rfl, fun _ => rfl, rfl⟩

theorem resetStats (hsound : registry.Sound) (hother : contest.symbol ≠ symbol) (now : Instant) :
    SameOf symbol registry (registry.resetStats contest now).1 := by
  have harms := find?_resetStats contest now registry
  obtain ⟨arms, hnext⟩ := exists_resetStats contest now registry
  rw [hnext] at harms ⊢
  refine ⟨fun _ _ => rfl, fun id => ?_, rfl, fun _ => rfl, rfl⟩
  rw [harms]
  split
  · next hlisted =>
    obtain ⟨arm, hfound, rfl⟩ := (hsound.mem_idsOf_iff contest id).mp hlisted
    rw [hfound]
    simp [Option.filter_some, Arm.cleared, hother]
  · rfl

/-- Putting a pull of another symbol's arm on record, under a decision that is not the symbol's. -/
theorem withPull {arm : Arm} (changed : Arm) (pull : Pull)
    (hfound : registry.arms.find? changed.id = some arm) (hother : arm.contest.symbol ≠ symbol)
    (hcontest : changed.contest = arm.contest) (hpull : pull.contest.symbol ≠ symbol)
    (hfiled : registry.decisions.find? pull.decision ≠ some symbol) :
    SameOf symbol registry (registry.withPull changed pull) := by
  refine ⟨fun _ _ => rfl, find?_insert registry hfound hother hcontest, ?_, fun decision => ?_,
    rfl⟩
  · rw [historyOf_withPull, if_neg (Ne.symm hpull)]
  · simp only [Registry.withPull, Table.find?_insert]
    split
    · next hdecision =>
      subst hdecision
      cases hknown : registry.decisions.find? pull.decision with
      | none => simp [Option.filter_some, hpull]
      | some filed =>
        have hne : filed ≠ symbol := fun hsame => hfiled (hsame ▸ hknown)
        simp [Option.filter_some, hpull, hne]
    · rfl

/-- Logging a pull of another symbol's arm, under a decision that is not the symbol's. -/
theorem logPull (hsound : registry.Sound) {arm : Arm} (hfound : registry.arms.find? id = some arm)
    (hother : arm.contest.symbol ≠ symbol) {decision : DecisionId}
    (hfiled : registry.decisions.find? decision ≠ some symbol) {context : Context}
    {halfLife : Span} {now : Instant} {answer : Except Refusal Pull}
    (hlog : registry.logPull id context decision halfLife now = .ok (next, answer)) :
    SameOf symbol registry next := by
  obtain ⟨-, rfl, -⟩ | ⟨known, hknown, -, rfl, -⟩ := logPull_spec hsound hlog
  · exact .refl symbol _
  · obtain rfl := Option.some.inj (hfound.symm.trans hknown)
    obtain rfl := hsound.id_eq hfound
    exact withPull (arm.pulled halfLife now) _ hfound hother rfl hother hfiled

theorem withOutcome {other : String} (hother : other ≠ symbol) (resolved : Pull)
    (registry : Registry) : SameOf symbol registry (registry.withOutcome other resolved) := by
  refine ⟨fun _ _ => rfl, fun _ => rfl, ?_, fun _ => rfl, rfl⟩
  rw [historyOf_withOutcome, if_neg (Ne.symm hother)]

/-- Resolving a decision that is not the symbol's. -/
theorem applyReward {decision : DecisionId} {outcome : Outcome} {halfLife : Span} {now : Instant}
    {answer : Except Refusal Pull}
    (hfiled : registry.decisions.find? decision ≠ some symbol)
    (harmed : ∀ other, ∀ pull ∈ registry.historyOf other,
      ∃ arm, registry.arms.find? pull.arm = some arm ∧ arm.contest.symbol = other)
    (happly : registry.applyReward decision outcome halfLife now = .ok (next, answer)) :
    SameOf symbol registry next := by
  obtain ⟨-, rfl, -⟩ | ⟨other, pull, hlocated, hresolution⟩ := applyReward_cases happly
  · exact .refl symbol _
  · obtain ⟨hdecision, hfound⟩ := (locate?_eq_some_iff decision other pull).mp hlocated
    have hother : other ≠ symbol := fun hsame => hfiled (hsame ▸ hdecision)
    have hresolved := withOutcome hother { pull with outcome := some outcome } registry
    obtain ⟨-, rfl, -⟩ | ⟨-, -, rfl, -⟩ | ⟨-, arm, stats, harm, -, rfl, -⟩ := hresolution
    · exact .refl symbol _
    · exact hresolved
    · obtain ⟨known, hknown, hcontest⟩ := harmed other pull (List.mem_of_find?_eq_some hfound)
      obtain rfl := Option.some.inj (harm.symm.trans hknown)
      exact { hresolved with
        arms := find?_insert registry harm (hcontest ▸ hother) rfl }

theorem seedLedger {other : String} (hother : other ≠ symbol) (ledger : Ledger)
    (registry : Registry) : SameOf symbol registry (registry.seedLedger other ledger) :=
  ⟨fun _ _ => rfl, fun _ => rfl, rfl, fun _ => rfl, Table.find?_insert_of_ne (Ne.symm hother)⟩

end SameOf

end Registry

namespace Arena

/-- Whether nothing that was drawn or logged is taken back. -/
structure DrawnLe (before after : Arena) : Prop where
  arms : before.registry.armsDrawn ≤ after.registry.armsDrawn
  decisions : before.decisionsDrawn ≤ after.decisionsDrawn
  pulls : before.registry.pullsLogged ≤ after.registry.pullsLogged

theorem DrawnLe.refl (arena : Arena) : DrawnLe arena arena :=
  ⟨Nat.le_refl _, Nat.le_refl _, Nat.le_refl _⟩

theorem DrawnLe.trans {before middle after : Arena} (hfirst : DrawnLe before middle)
    (hsecond : DrawnLe middle after) : DrawnLe before after :=
  ⟨Nat.le_trans hfirst.arms hsecond.arms, Nat.le_trans hfirst.decisions hsecond.decisions,
    Nat.le_trans hfirst.pulls hsecond.pulls⟩

/-- Two arenas with the same records and the same generator of a symbol. -/
structure SameOf (symbol : String) (before after : Arena) : Prop where
  registry : before.registry.SameOf symbol after.registry
  generator : after.generators.find? symbol = before.generators.find? symbol

variable {shares : Shares} {symbol : String} {full reduced next : Arena} {contest : Contest}
  {settings : Settings.Selection} {seeding : Seeding} {now : Instant} {context : Context}

theorem Mirrors.idle (hmirrors : Mirrors shares symbol full reduced)
    (hsame : SameOf symbol full next) (hdrawn : DrawnLe full next)
    (hcovers : shares.Covers false full next) : Mirrors shares symbol next reduced where
  registry.idsOf contest hown := by
    rw [hmirrors.registry.idsOf contest hown, hsame.registry.idsOf contest hown]
  registry.arms id := by rw [hmirrors.registry.arms, hsame.registry.arms]
  registry.history := by rw [hmirrors.registry.history, hsame.registry.history]
  registry.others := hmirrors.registry.others
  registry.decisions decision := by
    rw [hmirrors.registry.decisions, hsame.registry.decisions]
  registry.ledger := hmirrors.registry.ledger.trans hsame.registry.ledger.symm
  registry.armsDrawn :=
    hmirrors.registry.armsDrawn.trans (shares.arms.rank_eq hdrawn.arms hcovers.arms).symm
  registry.pullsLogged :=
    hmirrors.registry.pullsLogged.trans (shares.pulls.rank_eq hdrawn.pulls hcovers.pulls).symm
  generator := hmirrors.generator.trans hsame.generator.symm
  decisionsDrawn :=
    hmirrors.decisionsDrawn.trans
      (shares.decisions.rank_eq hdrawn.decisions hcovers.decisions).symm

/-- Selecting for another symbol's contest. -/
theorem SameOf.select (hsound : full.registry.Sound) (hother : contest.symbol ≠ symbol)
    (hfresh : full.registry.decisions.find? full.nextDecision ≠ some symbol)
    {answer : Except Refusal Selection}
    (hselect : full.select settings seeding now contest context = .ok (next, answer)) :
    SameOf symbol full next := by
  obtain ⟨-, rfl⟩ | ⟨generator, arm, -, ⟨hfound, rfl⟩, rfl, -⟩ := select_cases hsound hselect
  · exact ⟨.refl symbol _, rfl⟩
  · have hpull := Registry.SameOf.withPull (arm.pulled settings.decay.halfLife now)
      (full.nextPull now arm context) hfound hother rfl hother hfresh
    refine ⟨{ hpull with ledger := ?_ }, ?_⟩
    · exact Table.find?_insert_of_ne (Ne.symm hother)
    · exact Table.find?_insert_of_ne (Ne.symm hother)

end Arena

theorem ArenaStep.drawnLe {governor : Governor} {command : Command}
    {answer : Except Refusal Reply} {arena : Arena}
    (hstep : ArenaStep governor command answer arena) (hsound : governor.registry.Sound) :
    governor.arena.DrawnLe arena := by
  have hreward : ∀ {decision : DecisionId} {outcome : Outcome} {halfLife : Span} {time : Instant}
      {registry : Registry} {result : Except Refusal Pull},
      governor.registry.applyReward decision outcome halfLife time = .ok (registry, result) →
      governor.arena.DrawnLe { governor.arena with registry } := by
    intro decision outcome halfLife time registry result happly
    obtain ⟨-, rfl, -⟩ | ⟨symbol, pull, -, ⟨-, rfl, -⟩ | ⟨-, -, rfl, -⟩ |
      ⟨-, arm, stats, -, -, rfl, -⟩⟩ := Registry.applyReward_cases happly
    all_goals exact ⟨Nat.le_refl _, Nat.le_refl _, Nat.le_refl _⟩
  have harms : ∀ {registry : Registry}, (∃ arms, registry = { governor.registry with arms }) →
      governor.arena.DrawnLe { governor.arena with registry } := by
    rintro registry ⟨arms, rfl⟩
    exact ⟨Nat.le_refl _, Nat.le_refl _, Nat.le_refl _⟩
  cases hstep with
  | ensureArms contest offers =>
    exact ⟨Registry.armsDrawn_le_ensureArms contest offers governor.clock governor.registry,
      Nat.le_refl _, (Registry.pullsLogged_ensureArms contest offers governor.clock _).ge⟩
  | select hselect =>
    obtain ⟨-, rfl⟩ | ⟨generator, arm, -, -, rfl, -⟩ := Arena.select_cases hsound hselect
    · exact .refl _
    · exact ⟨Nat.le_refl _, Nat.le_succ _, Nat.le_succ _⟩
  | report _ hrecord =>
    obtain ⟨-, rfl, -⟩ | ⟨usable, registry, result, -, happly, rfl, -⟩ :=
      Arena.recordOutcome_cases hrecord
    · exact .refl _
    · exact hreward happly
  | setStatus id status => exact harms (Registry.exists_setStatus id status _ _)
  | setPresetStatus preset status => exact harms (Registry.exists_setPresetStatus preset status _ _)
  | resetArms contest => exact harms (Registry.exists_resetStats contest _ _)
  | logPull hlog =>
    obtain rfl | ⟨arm, stats, histories, decisions, -, rfl⟩ := Registry.logPull_cases hlog
    · exact ⟨Nat.le_refl _, Nat.le_refl _, Nat.le_refl _⟩
    · exact ⟨Nat.le_refl _, Nat.le_refl _, Nat.le_succ _⟩
  | applyReward happly => exact hreward happly
  | chargeLedger hcharge =>
    obtain ⟨rfl, -⟩ := Registry.chargeLedger_eq_ok_iff.mp hcharge
    exact ⟨Nat.le_refl _, Nat.le_refl _, Nat.le_refl _⟩
  | spared | restoreArm | seedLedger | prune =>
    exact ⟨Nat.le_refl _, Nat.le_refl _, Nat.le_refl _⟩

end ExposureControl
