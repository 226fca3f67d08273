import ExposureControl.Proofs.Soundness

/-!
# The answer to a selection

When a selection is refused, which arm it may take otherwise, and what it then changes, for every
governor that a history leads to.  The only way to get no answer is a counter without room.
-/

namespace ExposureControl

namespace Governor

variable {governor after : Governor} {contest : Contest} {context : Context} {arm : Arm}

/-- Whether a contest has nothing to select: all its arms are blocked, or the budget shuts out
candidates and all its eligible arms are candidates. -/
def Exhausted (governor : Governor) (contest : Contest) : Prop :=
  (∀ arm, governor.registry.Holds contest arm → arm.status = .blocked) ∨
    governor.candidatesAllowed contest.symbol = false ∧
      ∀ arm, governor.registry.Holds contest arm → arm.status = .eligible →
        arm.role = .candidate

/-- Whether an arm may be selected in a contest. -/
structure Offers (governor : Governor) (contest : Contest) (arm : Arm) : Prop where
  held : governor.registry.Holds contest arm
  eligible : arm.status = .eligible
  baseline : governor.candidatesAllowed contest.symbol = false → arm.role = .baseline

/-- What the selection of an arm answers, what it changes, and what it leaves as it is. -/
structure Selects (governor : Governor) (contest : Contest) (context : Context) (arm : Arm)
    (selection : Selection) (after : Governor) : Prop where
  answer : selection =
    { arm := arm.id, preset := arm.preset, role := arm.role, decision := selection.decision,
      context }
  /-- Exactly one pull is added to the symbol's history, and it is not resolved. -/
  history : ∃ serial, after.registry.historyOf contest.symbol =
    governor.registry.historyOf contest.symbol ++
      [{ serial, arm := arm.id, loggedAt := governor.clock, decision := selection.decision,
         context, outcome := none, contest, role := arm.role }]
  histories : ∀ symbol, symbol ≠ contest.symbol →
    after.registry.historyOf symbol = governor.registry.historyOf symbol
  /-- The arm counts one more selection. -/
  picked : ∃ changed, after.registry.arms.find? arm.id = some changed ∧
    changed = arm.pulled governor.settings.selection.decay.halfLife governor.clock ∧
    changed.stats.pulls = arm.stats.pulls + 1
  arms : ∀ id, id ≠ arm.id → after.registry.arms.find? id = governor.registry.arms.find? id
  total : (after.registry.ledgerOn contest.symbol governor.clock).total =
    (governor.registry.ledgerOn contest.symbol governor.clock).total + 1
  candidates : (after.registry.ledgerOn contest.symbol governor.clock).candidates =
    (governor.registry.ledgerOn contest.symbol governor.clock).candidates +
      if arm.role = .candidate then 1 else 0
  ledgers : ∀ symbol, symbol ≠ contest.symbol →
    after.registry.ledgers.find? symbol = governor.registry.ledgers.find? symbol
  /-- Nothing outside the arena changes. -/
  rest : after = { governor with arena := after.arena }

/-! ## What is offered -/

theorem mem_offered_iff (hsound : governor.registry.Sound) (contest : Contest) (arm : Arm) :
    arm ∈ governor.arena.offered governor.settings.selection contest governor.clock ↔
      governor.Offers contest arm := by
  rw [Arena.mem_offered_iff]
  constructor
  · rintro ⟨hlisted, heligible, hbaseline⟩
    exact ⟨(Registry.mem_armsOf_iff hsound contest arm).mp hlisted, of_decide_eq_true heligible,
      hbaseline⟩
  · rintro ⟨hheld, heligible, hbaseline⟩
    exact ⟨(Registry.mem_armsOf_iff hsound contest arm).mpr hheld, decide_eq_true heligible,
      hbaseline⟩

theorem exhausted_iff_not_offers (governor : Governor) (contest : Contest) :
    governor.Exhausted contest ↔ ∀ arm, ¬ governor.Offers contest arm := by
  constructor
  · rintro (hblocked | ⟨hdenied, hcandidates⟩) arm hoffers
    · have hstatus := hblocked arm hoffers.held
      rw [hoffers.eligible] at hstatus
      cases hstatus
    · have hrole := hcandidates arm hoffers.held hoffers.eligible
      rw [hoffers.baseline hdenied] at hrole
      cases hrole
  · intro hnone
    cases hallowed : governor.candidatesAllowed contest.symbol with
    | true =>
      refine .inl fun arm hheld => ?_
      cases hstatus : arm.status with
      | blocked => rfl
      | eligible =>
        refine absurd ⟨hheld, hstatus, fun hdenied => ?_⟩ (hnone arm)
        rw [hallowed] at hdenied
        cases hdenied
    | false =>
      refine .inr ⟨hallowed, fun arm hheld hstatus => ?_⟩
      cases hrole : arm.role with
      | candidate => rfl
      | baseline => exact absurd ⟨hheld, hstatus, fun _ => hrole⟩ (hnone arm)

theorem offered_eq_nil_iff (hsound : governor.registry.Sound) (contest : Contest) :
    governor.arena.offered governor.settings.selection contest governor.clock = [] ↔
      governor.Exhausted contest := by
  rw [List.eq_nil_iff_forall_not_mem, exhausted_iff_not_offers]
  simp only [mem_offered_iff hsound]

/-! ## What is answered -/

theorem select_eq_ok {arena : Arena} {answer : Except Refusal Selection}
    (hselect : governor.arena.select governor.settings.selection governor.seeding governor.clock
      contest context = .ok (arena, answer)) :
    governor.select contest context = .ok ({ governor with arena }, answer) :=
  tryArena_eq_ok_iff.mpr ⟨arena, hselect, rfl⟩

theorem select_eq_error {fault : Fault}
    (hselect : governor.arena.select governor.settings.selection governor.seeding governor.clock
      contest context = .error fault) :
    governor.select contest context = .error fault := by
  rw [select, tryArena, hselect]
  rfl

/-- The effect of committing to a recorded arm. -/
theorem selects_of_committed (hheld : governor.registry.Holds contest arm)
    (generator : Generator) :
    governor.Selects contest context arm (governor.arena.selectionOf arm context)
      { governor with
        arena := (governor.arena.withGenerator contest.symbol generator).committed
          governor.settings.selection governor.clock contest.symbol arm context } := by
  obtain ⟨-, rfl⟩ := hheld
  let committed := (governor.arena.withGenerator arm.contest.symbol generator).committed
    governor.settings.selection governor.clock arm.contest.symbol arm context
  have hhistory := Arena.historyOf_committed governor.settings.selection governor.clock arm
    context (governor.arena.withGenerator arm.contest.symbol generator) arm.contest.symbol
  have hledgers : committed.registry.ledgers = governor.registry.ledgers.insert
      arm.contest.symbol (governor.registry.nextLedger arm.contest.symbol governor.clock arm) :=
    rfl
  have hledger : committed.registry.ledgerOn arm.contest.symbol governor.clock =
      governor.registry.nextLedger arm.contest.symbol governor.clock arm := by
    rw [Registry.ledgerOn_of_insert hledgers, if_pos rfl, Registry.onDay_nextLedger]
  refine ⟨rfl, ⟨governor.registry.pullsLogged + 1, ?_⟩, ?_, ⟨_, ?_, rfl, rfl⟩, ?_, ?_, ?_, ?_, rfl⟩
  · exact (hhistory arm.contest.symbol).trans (if_pos rfl)
  · exact fun symbol hother => (hhistory symbol).trans (if_neg hother)
  · exact Table.find?_insert_self governor.registry.arms arm.id _
  · exact fun id hother => Table.find?_insert_of_ne hother
  · exact congrArg Ledger.total hledger
  · refine (congrArg Ledger.candidates hledger).trans ?_
    cases hrole : arm.role <;> simp [Registry.nextLedger, hrole]
  · exact fun symbol hother => Table.find?_insert_of_ne hother

/-- Where something is on offer, a selection takes it, and only a full counter stops it. -/
theorem select_of_offers (hsound : governor.registry.Sound)
    (henabled : governor.settings.selection.enabled = true) (contest : Contest)
    (context : Context) (hsome : ¬ governor.Exhausted contest) :
    ∃ arm, governor.Offers contest arm ∧
      (governor.registry.HasRoom contest.symbol governor.clock arm ∧
          (∃ selection after, governor.select contest context = .ok (after, .ok selection) ∧
            governor.Selects contest context arm selection after) ∨
        ¬ governor.registry.HasRoom contest.symbol governor.clock arm ∧
          governor.select contest context = .error .counterOverflow) := by
  have hoffered := mt (offered_eq_nil_iff hsound contest).mp hsome
  obtain ⟨generator, arm, harm, hcommit⟩ :=
    Arena.select_of_offered governor.seeding context henabled hoffered
  have hoffers := (mem_offered_iff hsound contest arm).mp harm
  have hchosen : (governor.arena.withGenerator contest.symbol generator).registry.Sound := hsound
  refine ⟨arm, hoffers, ?_⟩
  by_cases hroom : governor.registry.HasRoom contest.symbol governor.clock arm
  · have hdone := select_eq_ok
      (hcommit.trans (Arena.commit_of_room hchosen hoffers.held.1 hroom))
    exact .inl ⟨hroom, _, _, hdone, selects_of_committed hoffers.held generator⟩
  · have hfault := select_eq_error
      (hcommit.trans (Arena.commit_of_full hchosen hoffers.held.1 hroom))
    exact .inr ⟨hroom, hfault⟩

end Governor

/-- A selection is refused as disabled exactly where selection is disabled, and for want of an arm
exactly where the contest is exhausted; a refusal changes nothing.  In all other cases it takes an
arm on offer, with exactly the effects of selecting it where the counters have room for one more,
and with a fault where they have not. -/
theorem select_exact {settings : Settings} {entropy : Seeding} {notifier : Notifier}
    {clock : Instant} {start governor : Governor} {turns : List Turn}
    (hcreate : Governor.create settings entropy notifier clock = .ok start)
    (hhistory : History start turns governor)
    (hrestores : ∀ turn ∈ turns, turn.RestoresFaithfully)
    (symbol regime : String) (side : Side) (context : Context) :
    let contest := Contest.of symbol regime side
    let result := governor.select contest context
    (result.map Prod.snd = .ok (.error .selectionDisabled) ↔
      settings.selection.enabled = false) ∧
    (result.map Prod.snd = .ok (.error (.noEligibleArm contest)) ↔
      settings.selection.enabled = true ∧ governor.Exhausted contest) ∧
    (settings.selection.enabled = true → ¬ governor.Exhausted contest →
      ∃ arm, governor.Offers contest arm ∧
        (governor.registry.HasRoom contest.symbol governor.clock arm ∧
            (∃ selection after, result = .ok (after, .ok selection) ∧
              governor.Selects contest context arm selection after) ∨
          ¬ governor.registry.HasRoom contest.symbol governor.clock arm ∧
            result = .error .counterOverflow)) ∧
    ∀ after refusal, result = .ok (after, .error refusal) →
      after = governor ∧
        (refusal = .selectionDisabled ∨ refusal = .noEligibleArm contest) := by
  intro contest result
  obtain ⟨hsettings, -, harena⟩ := Governor.create_eq_ok hcreate
  have hsound := hhistory.sound harena hrestores
  rw [← hsettings, ← hhistory.settings_eq]
  cases henabled : governor.settings.selection.enabled with
  | false =>
    have hresult : result = .ok (governor, .error .selectionDisabled) :=
      Governor.select_eq_ok (Arena.select_of_disabled henabled)
    rw [hresult]
    simp [Except.map, eq_comm]
  | true =>
    by_cases hexhausted : governor.Exhausted contest
    · have hresult : result = .ok (governor, .error (.noEligibleArm contest)) :=
        Governor.select_eq_ok (Arena.select_of_nothing_offered henabled
          ((Governor.offered_eq_nil_iff hsound contest).mpr hexhausted))
      rw [hresult]
      simp [Except.map, hexhausted, eq_comm]
    · obtain ⟨arm, hoffers, hcases⟩ :=
        Governor.select_of_offers hsound henabled contest context hexhausted
      have hnotRefused : ∀ after refusal, result ≠ .ok (after, .error refusal) := by
        intro after refusal hrefused
        obtain ⟨-, selection, done, hdone, -⟩ | ⟨-, hfault⟩ := hcases
        · rw [show result = _ from hdone] at hrefused
          cases hrefused
        · rw [show result = _ from hfault] at hrefused
          cases hrefused
      have hanswer : ∀ refusal, result.map Prod.snd ≠ .ok (.error refusal) := by
        intro refusal hmap
        cases hresult : result with
        | error fault => simp [hresult, Except.map] at hmap
        | ok done =>
          simp only [hresult, Except.map, Except.ok.injEq] at hmap
          exact hnotRefused done.1 refusal (by rw [hresult, ← hmap])
      refine ⟨⟨fun h => absurd h (hanswer _), nofun⟩,
        ⟨fun h => absurd h (hanswer _), fun h => absurd h.2 hexhausted⟩,
        fun _ _ => ⟨arm, hoffers, hcases⟩, fun after refusal h => absurd h (hnotRefused _ _)⟩

/-- A contest whose only arm is a new baseline gets an arm. -/
theorem select_exact_new_baseline :
    ∃ start turns governor,
      Governor.create {} 0 .log ⟨0⟩ = .ok start ∧ History start turns governor ∧
      (∀ turn ∈ turns, turn.RestoresFaithfully) ∧
      ∃ arm selection after, governor.Offers (.of "BTCUSDT" "" .buy) arm ∧
        governor.select (.of "BTCUSDT" "" .buy) .empty = .ok (after, .ok selection) ∧
        governor.Selects (.of "BTCUSDT" "" .buy) .empty arm selection after := by
  let arm : Arm := .create (.given ⟨1⟩) (.of "BTCUSDT" "" .buy) ⟨.given ⟨9⟩, .baseline⟩ ⟨0⟩
  obtain ⟨start, turns, governor, hcreate, hhistory, hrestores, hsome, hpulls, hledgers⟩ :
      ∃ start turns governor,
        Governor.create {} 0 .log ⟨0⟩ = .ok start ∧ History start turns governor ∧
        (∀ turn ∈ turns, turn.RestoresFaithfully) ∧
        governor.Offers (.of "BTCUSDT" "" .buy) arm ∧
        (∀ arm ∈ governor.registry.arms.values, arm.stats.pulls = 0) ∧
        governor.registry.ledgers = .empty := by
    refine ⟨_, _, _, rfl, .turn .start (rfl : Governor.step _ (.restoreArm arm) = _), ?_,
      ⟨⟨rfl, rfl⟩, rfl, fun _ => rfl⟩, List.forall_mem_singleton.mpr rfl, rfl⟩
    refine List.forall_mem_singleton.mpr fun restored hrestored => ?_
    cases hrestored
    exact ⟨nofun, nofun⟩
  have hopen : ¬ governor.Exhausted (.of "BTCUSDT" "" .buy) := fun hexhausted =>
    (Governor.exhausted_iff_not_offers governor _).mp hexhausted _ hsome
  obtain ⟨arm, hoffers, ⟨-, selection, after, hselect, heffect⟩ | ⟨hfull, -⟩⟩ :=
    (select_exact hcreate hhistory hrestores "BTCUSDT" "" .buy .empty).2.2.1 rfl hopen
  · exact ⟨start, turns, governor, hcreate, hhistory, hrestores, arm, selection, after, hoffers,
      hselect, heffect⟩
  · have hnew := hpulls arm ((Table.mem_values_iff _ _).mpr ⟨arm.id, hoffers.held.1⟩)
    have hroom : 0 + 1 < Word64.size := by decide
    refine absurd ⟨?_, ?_, fun _ => ?_⟩ hfull
    · rwa [hnew]
    · rwa [Registry.ledgerOn, hledgers]
    · rwa [Registry.ledgerOn, hledgers]

/-- An arm whose counter is full is on offer, and selecting it is a fault. -/
theorem select_full_arm_faults :
    ∃ arm start turns governor,
      Governor.create { selection := { policy := .ucb1 } } 0 .log ⟨0⟩ = .ok start ∧
      History start turns governor ∧ (∀ turn ∈ turns, turn.RestoresFaithfully) ∧
      governor.Offers (.of "BTCUSDT" "" .buy) arm ∧
      governor.select (.of "BTCUSDT" "" .buy) .empty = .error .counterOverflow := by
  let arm : Arm :=
    { Arm.create (.given ⟨1⟩) (.of "BTCUSDT" "" .buy) ⟨.given ⟨9⟩, .baseline⟩ ⟨0⟩ with
      stats := .ofMoments 0.0 0.0 (Word64.size - 1) ⟨0⟩ }
  refine ⟨arm, _, _, _, rfl, .turn .start (rfl : Governor.step _ (.restoreArm arm) = _), ?_,
    ⟨⟨rfl, rfl⟩, rfl, fun _ => rfl⟩, rfl⟩
  refine List.forall_mem_singleton.mpr fun restored hrestored => ?_
  cases hrestored
  exact ⟨nofun, nofun⟩

end ExposureControl
