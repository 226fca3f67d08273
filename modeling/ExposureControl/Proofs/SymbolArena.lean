import ExposureControl.Proofs.ArenaSelect
import ExposureControl.Proofs.Soundness
import ExposureControl.Proofs.SymbolMirror

/-!
# Selections in the mirror of a symbol

A selection reads the arms of its contest, the ledger and the generator of its symbol, and it
changes nothing else but the record of pulls.  So two arenas that mirror each other for a symbol
select alike for it.
-/

namespace ExposureControl

/-- Whether all that was drawn and logged between two arenas is the symbol's, or none of it. -/
structure Shares.Covers (shares : Shares) (mine : Bool) (before after : Arena) : Prop where
  arms : ∀ serial, before.registry.armsDrawn < serial → serial ≤ after.registry.armsDrawn →
    shares.arms.own serial = mine
  decisions : ∀ serial, before.decisionsDrawn < serial → serial ≤ after.decisionsDrawn →
    shares.decisions.own serial = mine
  pulls : ∀ serial, before.registry.pullsLogged < serial → serial ≤ after.registry.pullsLogged →
    shares.pulls.own serial = mine

namespace Arena

/-- Whether `reduced` has what `full` has of a symbol, renamed. -/
structure Mirrors (shares : Shares) (symbol : String) (full reduced : Arena) : Prop where
  registry : full.registry.Mirrors shares symbol reduced.registry
  generator : reduced.generators.find? symbol = full.generators.find? symbol
  decisionsDrawn : reduced.decisionsDrawn = shares.decisions.rank full.decisionsDrawn

namespace Mirrors

variable {shares : Shares} {symbol : String} {full reduced next : Arena} {contest : Contest}
  {settings : Settings.Selection} {seeding : Seeding} {now : Instant} {context : Context}

theorem empty (shares : Shares) (symbol : String) :
    Mirrors shares symbol Arena.empty Arena.empty :=
  ⟨.empty shares symbol, rfl, shares.decisions.rank_zero.symm⟩

theorem candidatesAllowed (hmirrors : Mirrors shares symbol full reduced)
    (settings : Settings.Selection) (now : Instant) :
    reduced.candidatesAllowed settings symbol now = full.candidatesAllowed settings symbol now := by
  rw [Arena.candidatesAllowed, hmirrors.registry.ledgerOn, Arena.candidatesAllowed]

theorem offered (hmirrors : Mirrors shares symbol full reduced) (hsound : full.registry.Sound)
    (hown : contest.symbol = symbol) (settings : Settings.Selection) (now : Instant) :
    reduced.offered settings contest now =
      (full.offered settings contest now).map shares.names.ofArm := by
  have heligible : (reduced.registry.armsOf contest).filter Arm.eligible =
      ((full.registry.armsOf contest).filter Arm.eligible).map shares.names.ofArm := by
    rw [hmirrors.registry.armsOf hsound hown, List.filter_map]
    rfl
  have hallowed : reduced.candidatesAllowed settings contest.symbol now =
      full.candidatesAllowed settings contest.symbol now := by
    rw [hown, hmirrors.candidatesAllowed]
  simp only [Arena.offered, heligible, hallowed, List.any_map, List.filter_map,
    Function.comp_def, Renaming.ofArm_role]
  exact (apply_ite (List.map shares.names.ofArm) _ _ _).symm

/-- The policy chooses the same arm with the same generator. -/
theorem chooseFrom (hmirrors : Mirrors shares symbol full reduced) {policy : Policy}
    {arms : List Arm} {arm? : Option Arm}
    (hchosen : full.chooseFrom policy seeding symbol arms = (next, arm?)) :
    ∃ reducedNext, reduced.chooseFrom policy seeding symbol (arms.map shares.names.ofArm) =
        (reducedNext, arm?.map shares.names.ofArm) ∧
      Mirrors shares symbol next reducedNext := by
  have hchoose := Policy.choose_map (fun arm => shares.names.ofArm_eligible arm)
    (fun arm => shares.names.ofArm_stats arm) policy arms
  let generator := (full.generators.find? symbol).getD (seeding.start symbol)
  have hplace : ((policy.choose arms generator).1.bind fun place =>
      (arms.map shares.names.ofArm)[place]?) =
        ((policy.choose arms generator).1.bind fun place => arms[place]?).map
          shares.names.ofArm := by
    rw [Option.map_bind]
    congr 1
    funext place
    exact List.getElem?_map ..
  obtain ⟨rfl, rfl⟩ := Prod.mk.inj hchosen
  refine ⟨reduced.withGenerator symbol (policy.choose arms generator).2, ?_, ?_⟩
  · simp only [Arena.chooseFrom, hmirrors.generator, hchoose]
    exact congrArg (Prod.mk _) hplace
  · refine ⟨hmirrors.registry, ?_, hmirrors.decisionsDrawn⟩
    exact (Table.find?_insert_self ..).trans (Table.find?_insert_self ..).symm

theorem nextDecision (hmirrors : Mirrors shares symbol full reduced)
    (hdrawn : shares.decisions.own (full.decisionsDrawn + 1) = true) :
    reduced.nextDecision = shares.names.ofDecision full.nextDecision := by
  rw [Arena.nextDecision, Arena.nextDecision, hmirrors.decisionsDrawn, Renaming.ofDecision,
    Identifier.renumber_drawn]
  exact congrArg (Identifier.drawn Supply.decisions)
    (shares.decisions.renumber_succ hdrawn).symm

/-- Committing to an arm of the symbol. -/
theorem commit (hmirrors : Mirrors shares symbol full reduced) (hsound : full.registry.Sound)
    (hsound' : reduced.registry.Sound) {arm : Arm}
    (hfound : full.registry.arms.find? arm.id = some arm) (hown : arm.contest.symbol = symbol)
    (hcovers : shares.Covers true full next) {answer : Except Refusal Selection}
    (hcommit : full.commit settings now symbol arm context = .ok (next, answer)) :
    ∃ reducedNext, reduced.commit settings now symbol (shares.names.ofArm arm) context =
        .ok (reducedNext, shares.names.ofResult shares.names.ofSelection answer) ∧
      Mirrors shares symbol next reducedNext := by
  have hfound' : reduced.registry.arms.find? (shares.names.ofArm arm).id =
      some (shares.names.ofArm arm) := hmirrors.registry.find?_own hfound hown
  have hledger := hmirrors.registry.ledgerOn now
  by_cases hroom : full.registry.HasRoom symbol now arm
  · have hroom' : reduced.registry.HasRoom symbol now (shares.names.ofArm arm) := by
      refine ⟨hroom.pulls, ?_, fun hcandidate => ?_⟩
      · rw [hledger]
        exact hroom.total
      · rw [hledger]
        exact hroom.candidates hcandidate
    rw [commit_of_room hsound hfound hroom] at hcommit
    obtain ⟨rfl, rfl⟩ := Prod.mk.inj (Except.ok.inj hcommit)
    have hdecision := hmirrors.nextDecision
      (hcovers.decisions _ (Nat.lt_succ_self _) (Nat.le_refl _))
    have hlogged := hcovers.pulls _ (Nat.lt_succ_self _) (Nat.le_refl _)
    have hpull : reduced.nextPull now (shares.names.ofArm arm) context =
        shares.names.ofPull (full.nextPull now arm context) := by
      rw [Arena.nextPull, hdecision]
      exact hmirrors.registry.nextPull hlogged arm context full.nextDecision now
    have hselection : reduced.selectionOf (shares.names.ofArm arm) context =
        shares.names.ofSelection (full.selectionOf arm context) := by
      rw [Arena.selectionOf, hdecision]
      rfl
    have hcharged : reduced.registry.nextLedger symbol now (shares.names.ofArm arm) =
        full.registry.nextLedger symbol now arm := by
      rw [Registry.nextLedger, hledger]
      rfl
    refine ⟨reduced.committed settings now symbol (shares.names.ofArm arm) context, ?_, ?_⟩
    · rw [commit_of_room hsound' hfound' hroom', hselection]
      rfl
    · have hregistry := (hmirrors.registry.withPull (arm.pulled settings.decay.halfLife now)
        (full.nextPull now arm context) hown hown hlogged).seedLedger
        (full.registry.nextLedger symbol now arm)
      rw [← hpull] at hregistry
      rw [committed, committed, hcharged]
      refine ⟨hregistry, hmirrors.generator, ?_⟩
      have hdrawn := hcovers.decisions _ (Nat.lt_succ_self _) (Nat.le_refl _)
      exact (congrArg (· + 1) hmirrors.decisionsDrawn).trans
        (shares.decisions.rank_succ_of_own hdrawn).symm
  · rw [commit_of_full hsound hfound hroom] at hcommit
    cases hcommit

/-- Selecting for a contest of the symbol. -/
theorem select (hmirrors : Mirrors shares symbol full reduced) (hsound : full.registry.Sound)
    (hsound' : reduced.registry.Sound) (hown : contest.symbol = symbol)
    (hcovers : shares.Covers true full next) {answer : Except Refusal Selection}
    (hselect : full.select settings seeding now contest context = .ok (next, answer)) :
    ∃ reducedNext, reduced.select settings seeding now contest context =
        .ok (reducedNext, shares.names.ofResult shares.names.ofSelection answer) ∧
      Mirrors shares symbol next reducedNext := by
  have hoffered := hmirrors.offered hsound hown settings now
  cases henabled : settings.enabled with
  | false =>
    rw [select_of_disabled henabled] at hselect
    obtain ⟨rfl, rfl⟩ := Prod.mk.inj (Except.ok.inj hselect)
    exact ⟨reduced, select_of_disabled henabled, hmirrors⟩
  | true =>
    by_cases hnone : full.offered settings contest now = []
    · rw [select_of_nothing_offered henabled hnone] at hselect
      obtain ⟨rfl, rfl⟩ := Prod.mk.inj (Except.ok.inj hselect)
      rw [hnone] at hoffered
      exact ⟨reduced, select_of_nothing_offered henabled hoffered, hmirrors⟩
    · obtain ⟨generator, arm, harm, hchosen⟩ := chooseFrom_eligible settings.policy seeding
        contest.symbol full hnone fun arm harm =>
          ((mem_offered_iff settings contest now full arm).mp harm).2.1
      have hnone' : reduced.offered settings contest now ≠ [] := by
        rw [hoffered]
        exact fun hempty => hnone (List.map_eq_nil_iff.mp hempty)
      subst hown
      obtain ⟨chosen, hchosen', hmiddle⟩ := hmirrors.chooseFrom hchosen
      rw [← hoffered] at hchosen'
      have hheld := holds_of_offered hsound harm
      have hregistry : chosen.registry = reduced.registry :=
        congrArg (fun choice => choice.1.registry) hchosen'.symm
      rw [← hregistry] at hsound'
      simp only [Arena.select, henabled, List.isEmpty_eq_false_iff.mpr hnone, hchosen,
        Bool.not_true, Bool.false_eq_true, if_false] at hselect
      simp only [Arena.select, henabled, List.isEmpty_eq_false_iff.mpr hnone', hchosen',
        Option.map_some, Bool.not_true, Bool.false_eq_true, if_false]
      exact hmiddle.commit hsound hsound' hheld.1 (congrArg Contest.symbol hheld.2)
        ⟨hcovers.arms, hcovers.decisions, hcovers.pulls⟩ hselect

/-- Reporting an outcome for a decision that no other symbol has. -/
theorem recordOutcome (hmirrors : Mirrors shares symbol full reduced) {decision : DecisionId}
    (hfiled : ∀ filed, full.registry.decisions.find? decision = some filed → filed = symbol)
    (harmed : ∀ pull ∈ full.registry.historyOf symbol,
      ∃ arm, full.registry.arms.find? pull.arm = some arm ∧ arm.contest.symbol = symbol)
    {outcome : Outcome} {answer : Except Refusal (Option Pull)}
    (hrecord : full.recordOutcome settings now decision outcome = .ok (next, answer)) :
    ∃ reducedNext,
      reduced.recordOutcome settings now (shares.names.ofDecision decision) outcome =
        .ok (reducedNext, shares.names.ofResult (Option.map shares.names.ofPull) answer) ∧
      Mirrors shares symbol next reducedNext := by
  obtain ⟨hdropped, rfl, rfl⟩ | ⟨usable, registry, result, husable, happly, rfl, rfl⟩ :=
    recordOutcome_cases hrecord
  · refine ⟨reduced, ?_, hmirrors⟩
    rw [Arena.recordOutcome, hdropped]
    rfl
  · obtain ⟨after, hafter, hregistry⟩ := hmirrors.registry.applyReward hfiled harmed happly
    refine ⟨{ reduced with registry := after }, ?_, hregistry, hmirrors.generator,
      hmirrors.decisionsDrawn⟩
    simp only [Arena.recordOutcome, husable, tryRegistry, hafter]
    cases result <;> rfl

end Mirrors

end Arena

end ExposureControl
