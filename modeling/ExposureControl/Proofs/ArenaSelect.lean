import ExposureControl.Proofs.Choice
import ExposureControl.Proofs.PullLog

/-!
# What a selection does

A selection is refused, or commits to one of the arms that it may offer.  Committing to an arm
succeeds exactly where the arm and the ledger have room for one more; then it logs one pull of the
arm and charges the symbol's ledger once.
-/

namespace ExposureControl

namespace Registry

/-- Whether the counters that a selection of an arm touches have room for it. -/
structure HasRoom (registry : Registry) (symbol : String) (now : Instant) (arm : Arm) : Prop where
  pulls : arm.stats.pulls + 1 < Word64.size
  total : (registry.ledgerOn symbol now).total + 1 < Word64.size
  candidates : arm.role = .candidate →
    (registry.ledgerOn symbol now).candidates + 1 < Word64.size

def nextLedger (registry : Registry) (symbol : String) (now : Instant) (arm : Arm) : Ledger :=
  ⟨now.day, (registry.ledgerOn symbol now).total + 1,
    (registry.ledgerOn symbol now).candidates + (decide (arm.role = .candidate)).toNat⟩

/-- Overwriting a symbol's ledger changes what is read of that symbol only. -/
theorem ledgerOn_of_insert {before after : Registry} {symbol : String} {ledger : Ledger}
    (hledgers : after.ledgers = before.ledgers.insert symbol ledger) (other : String)
    (now : Instant) :
    after.ledgerOn other now =
      if other = symbol then Ledger.onDay now.day (some ledger) else before.ledgerOn other now := by
  rw [ledgerOn, hledgers, Table.find?_insert]
  by_cases h : other = symbol
  · rw [if_pos h, if_pos h]
  · rw [if_neg h, if_neg h, ledgerOn]

theorem onDay_nextLedger (registry : Registry) (symbol : String) (now : Instant) (arm : Arm) :
    Ledger.onDay now.day (some (registry.nextLedger symbol now arm)) =
      registry.nextLedger symbol now arm :=
  if_pos rfl

end Registry

namespace Arena

variable {settings : Settings.Selection} {seeding : Seeding} {now : Instant} {contest : Contest}
  {context : Context} {arena next : Arena}

/-! ## The arms that may be chosen -/

/-- An eligible arm is offered unless the budget shuts it out as a candidate. -/
theorem mem_offered_iff (settings : Settings.Selection) (contest : Contest) (now : Instant)
    (arena : Arena) (arm : Arm) :
    arm ∈ arena.offered settings contest now ↔
      arm ∈ arena.registry.armsOf contest ∧ arm.eligible = true ∧
        (arena.candidatesAllowed settings contest.symbol now = false → arm.role = .baseline) := by
  dsimp only [offered]
  split
  · next hshut =>
    simp only [Bool.and_eq_true, Bool.not_eq_true'] at hshut
    simp only [List.mem_filter, hshut.2, decide_eq_true_eq, and_assoc, forall_const]
  · next hopen =>
    rw [List.mem_filter]
    refine ⟨?_, fun hoffered => ⟨hoffered.1, hoffered.2.1⟩⟩
    rintro ⟨hlisted, heligible⟩
    refine ⟨hlisted, heligible, fun hdenied => ?_⟩
    cases hrole : arm.role with
    | baseline => rfl
    | candidate =>
      refine absurd ?_ hopen
      simp only [hdenied, Bool.not_false, Bool.and_true, List.any_eq_true, List.mem_filter,
        decide_eq_true_eq]
      exact ⟨arm, ⟨hlisted, heligible⟩, hrole⟩

/-! ## Committing to an arm -/

def nextDecision (arena : Arena) : DecisionId := .drawn .decisions (arena.decisionsDrawn + 1)

def nextPull (now : Instant) (arm : Arm) (context : Context) (arena : Arena) : Pull :=
  arena.registry.nextPull arm context arena.nextDecision now

/-- The arena after a selection of an arm, with the symbol's ledger as it was charged. -/
def withSelection (settings : Settings.Selection) (now : Instant) (symbol : String) (arm : Arm)
    (context : Context) (ledger : Ledger) (arena : Arena) : Arena :=
  { arena with
    registry :=
      { arena.registry.withPull (arm.pulled settings.decay.halfLife now)
          (arena.nextPull now arm context) with
        ledgers := arena.registry.ledgers.insert symbol ledger }
    decisionsDrawn := arena.decisionsDrawn + 1 }

def committed (settings : Settings.Selection) (now : Instant) (symbol : String) (arm : Arm)
    (context : Context) (arena : Arena) : Arena :=
  arena.withSelection settings now symbol arm context (arena.registry.nextLedger symbol now arm)

def selectionOf (arm : Arm) (context : Context) (arena : Arena) : Selection where
  arm := arm.id
  preset := arm.preset
  role := arm.role
  decision := arena.nextDecision
  context

/-- Committing to an arm adds one pull to the history of the arm's symbol. -/
theorem historyOf_committed (settings : Settings.Selection) (now : Instant) (arm : Arm)
    (context : Context) (arena : Arena) (charged symbol : String) :
    (arena.committed settings now charged arm context).registry.historyOf symbol =
      if symbol = arm.contest.symbol then
        arena.registry.historyOf symbol ++ [arena.nextPull now arm context]
      else arena.registry.historyOf symbol :=
  Registry.historyOf_withPull arena.registry (arm.pulled settings.decay.halfLife now)
    (arena.nextPull now arm context) symbol

/-- Once the pull of a recorded arm is logged, the charge of the ledger decides. -/
theorem commit_eq_map_charge (hsound : arena.registry.Sound) {arm : Arm}
    (hfound : arena.registry.arms.find? arm.id = some arm)
    (hpulls : arm.stats.pulls + 1 < Word64.size) (symbol : String) :
    arena.commit settings now symbol arm context =
      ((arena.registry.ledgerOn symbol now).charge (arm.role = .candidate)).map fun ledger =>
        (arena.withSelection settings now symbol arm context ledger,
          .ok (arena.selectionOf arm context)) := by
  dsimp only [commit]
  rw [Registry.logPull_of_lt hsound hfound hpulls]
  change ((arena.registry.ledgerOn symbol now).charge (arm.role = .candidate) >>= _) >>= _ = _
  cases (arena.registry.ledgerOn symbol now).charge (arm.role = .candidate) <;> rfl

/-- With room for one more, committing logs the pull and charges the ledger. -/
theorem commit_of_room (hsound : arena.registry.Sound) {arm : Arm}
    (hfound : arena.registry.arms.find? arm.id = some arm) {symbol : String}
    (hroom : arena.registry.HasRoom symbol now arm) :
    arena.commit settings now symbol arm context =
      .ok (arena.committed settings now symbol arm context,
        .ok (arena.selectionOf arm context)) := by
  have hcharge : (arena.registry.ledgerOn symbol now).charge (arm.role = .candidate) =
      .ok (arena.registry.nextLedger symbol now arm) := by
    rw [Ledger.charge_eq_ok_iff]
    refine ⟨?_, hroom.total, fun hcandidate => hroom.candidates (of_decide_eq_true hcandidate)⟩
    simp only [Registry.nextLedger, Registry.ledgerOn, Ledger.day_onDay]
  rw [commit_eq_map_charge hsound hfound hroom.pulls, hcharge]
  rfl

theorem commit_of_full (hsound : arena.registry.Sound) {arm : Arm}
    (hfound : arena.registry.arms.find? arm.id = some arm) {symbol : String}
    (hfull : ¬ arena.registry.HasRoom symbol now arm) :
    arena.commit settings now symbol arm context = .error .counterOverflow := by
  by_cases hpulls : arm.stats.pulls + 1 < Word64.size
  · have hcharge : (arena.registry.ledgerOn symbol now).charge (arm.role = .candidate) =
        .error .counterOverflow := by
      refine Ledger.charge_of_full fun hroom => hfull ⟨hpulls, hroom.1, fun hcandidate => ?_⟩
      exact hroom.2 (decide_eq_true hcandidate)
    rw [commit_eq_map_charge hsound hfound hpulls, hcharge]
    rfl
  · dsimp only [commit]
    rw [Registry.logPull_of_le hfound (Nat.not_lt.mp hpulls)]
    rfl

/-! ## Selecting -/

theorem select_of_disabled (hdisabled : settings.enabled = false) :
    arena.select settings seeding now contest context =
      .ok (arena, .error .selectionDisabled) := by
  simp only [select, hdisabled, Bool.not_false, if_true]

theorem select_of_nothing_offered (henabled : settings.enabled = true)
    (hnone : arena.offered settings contest now = []) :
    arena.select settings seeding now contest context =
      .ok (arena, .error (.noEligibleArm contest)) := by
  simp only [select, henabled, hnone, Bool.not_true, Bool.false_eq_true, if_false,
    List.isEmpty_nil, if_true]

/-- Where something may be offered, a selection commits to one of the offered arms. -/
theorem select_of_offered (seeding : Seeding) (context : Context)
    (henabled : settings.enabled = true)
    (hsome : arena.offered settings contest now ≠ []) :
    ∃ generator, ∃ arm ∈ arena.offered settings contest now,
      arena.select settings seeding now contest context =
        (arena.withGenerator contest.symbol generator).commit settings now contest.symbol arm
          context := by
  obtain ⟨generator, arm, harm, hchosen⟩ := chooseFrom_eligible settings.policy seeding
    contest.symbol arena hsome fun arm harm =>
      ((mem_offered_iff settings contest now arena arm).mp harm).2.1
  refine ⟨generator, arm, harm, ?_⟩
  simp only [select, henabled, List.isEmpty_eq_false_iff.mpr hsome, hchosen, Bool.not_true,
    Bool.false_eq_true, if_false]

/-- A selection is refused without effect, or commits to one of the offered arms. -/
theorem select_refused_or_committed (settings : Settings.Selection) (seeding : Seeding)
    (now : Instant) (contest : Contest) (context : Context) (arena : Arena) :
    (∃ refusal, arena.select settings seeding now contest context =
        .ok (arena, .error refusal)) ∨
      ∃ generator, ∃ arm ∈ arena.offered settings contest now,
        arena.select settings seeding now contest context =
          (arena.withGenerator contest.symbol generator).commit settings now contest.symbol arm
            context := by
  cases henabled : settings.enabled with
  | false => exact .inl ⟨_, select_of_disabled henabled⟩
  | true =>
    by_cases hoffered : arena.offered settings contest now = []
    · exact .inl ⟨_, select_of_nothing_offered henabled hoffered⟩
    · exact .inr (select_of_offered seeding context henabled hoffered)

theorem holds_of_offered (hsound : arena.registry.Sound) {arm : Arm}
    (harm : arm ∈ arena.offered settings contest now) : arena.registry.Holds contest arm :=
  (Registry.mem_armsOf_iff hsound contest arm).mp
    ((mem_offered_iff settings contest now arena arm).mp harm).1

/-- A selection that is carried out is refused without effect, or commits to an offered arm that
is on record. -/
theorem select_cases (hsound : arena.registry.Sound) {answer : Except Refusal Selection}
    (hselect : arena.select settings seeding now contest context = .ok (next, answer)) :
    ((∃ refusal, answer = .error refusal) ∧ next = arena) ∨
      ∃ generator, ∃ arm ∈ arena.offered settings contest now,
        arena.registry.Holds contest arm ∧
        next = (arena.withGenerator contest.symbol generator).committed settings now
          contest.symbol arm context ∧
        answer = .ok (arena.selectionOf arm context) := by
  obtain ⟨refusal, hrefused⟩ | ⟨generator, arm, harm, hcommit⟩ :=
    select_refused_or_committed settings seeding now contest context arena
  · rw [hrefused] at hselect
    simp only [Except.ok.injEq, Prod.mk.injEq] at hselect
    exact .inl ⟨⟨refusal, hselect.2.symm⟩, hselect.1.symm⟩
  · have hheld := holds_of_offered hsound harm
    have hchosen : (arena.withGenerator contest.symbol generator).registry.Sound := hsound
    rw [hcommit] at hselect
    by_cases hroom : arena.registry.HasRoom contest.symbol now arm
    · rw [commit_of_room hchosen hheld.1 hroom] at hselect
      simp only [Except.ok.injEq, Prod.mk.injEq] at hselect
      exact .inr ⟨generator, arm, harm, hheld, hselect.1.symm, hselect.2.symm⟩
    · rw [commit_of_full hchosen hheld.1 hroom] at hselect
      cases hselect

/-! ## Ledgers -/

/-- A selection charges one ledger, which has room for that, and only if it succeeds.  This holds
of unsound registries too. -/
theorem ledgers_select {answer : Except Refusal Selection}
    (hselect : arena.select settings seeding now contest context = .ok (next, answer)) :
    ((∃ refusal, answer = .error refusal) ∧ next.registry.ledgers = arena.registry.ledgers) ∨
      ∃ arm ∈ arena.offered settings contest now,
        answer = .ok (arena.selectionOf arm context) ∧
        next.registry.ledgers = arena.registry.ledgers.insert contest.symbol
          (arena.registry.nextLedger contest.symbol now arm) ∧
        (arena.registry.ledgerOn contest.symbol now).total + 1 < Word64.size ∧
        (arm.role = .candidate →
          (arena.registry.ledgerOn contest.symbol now).candidates + 1 < Word64.size) := by
  obtain ⟨refusal, hrefused⟩ | ⟨generator, arm, harm, hcommit⟩ :=
    select_refused_or_committed settings seeding now contest context arena
  · rw [hrefused] at hselect
    simp only [Except.ok.injEq, Prod.mk.injEq] at hselect
    exact .inl ⟨⟨refusal, hselect.2.symm⟩, by rw [hselect.1]⟩
  · rw [hcommit, commit] at hselect
    simp only [Fault.bind_eq_ok_iff, Prod.exists] at hselect
    obtain ⟨registry, logged, hlog, hselect⟩ := hselect
    have hledgers : registry.ledgers = arena.registry.ledgers := Registry.ledgers_logPull hlog
    cases logged with
    | error refusal =>
      simp only [Fault.pure_eq_ok_iff, Prod.mk.injEq] at hselect
      obtain ⟨rfl, rfl⟩ := hselect
      exact .inl ⟨⟨refusal, rfl⟩, hledgers⟩
    | ok pull =>
      simp only [Fault.bind_eq_ok_iff, Fault.pure_eq_ok_iff, Prod.mk.injEq,
        Registry.chargeLedger_eq_ok_iff] at hselect
      obtain ⟨charged, ⟨rfl, hroom⟩, rfl, rfl⟩ := hselect
      simp only [Registry.ledgerOn, hledgers, decide_eq_true_eq] at hroom
      refine .inr ⟨arm, harm, rfl, ?_, hroom⟩
      simp only [Registry.ledgerOn, hledgers, Registry.nextLedger]

end Arena

end ExposureControl
