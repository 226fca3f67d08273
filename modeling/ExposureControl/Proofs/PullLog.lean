import ExposureControl.Proofs.ArmIndex

/-!
# The log of pulls

What logging a selection, resolving a decision, pruning and charging a ledger do to a registry,
each as an equation or as the list of its outcomes.  None of them changes which arms there are.
-/

namespace ExposureControl

namespace Arm

def pulled (halfLife : Span) (now : Instant) (arm : Arm) : Arm :=
  { arm with
    stats := { arm.stats.fade halfLife now with
      pulls := arm.stats.pulls + 1, lastUpdated := some now }
    updatedAt := now }

@[simp] theorem identity_pulled (halfLife : Span) (now : Instant) (arm : Arm) :
    (arm.pulled halfLife now).identity = arm.identity := rfl

end Arm

namespace Registry

variable {registry next : Registry}

/-! ## Logging a selection -/

def nextPull (registry : Registry) (arm : Arm) (context : Context) (decision : DecisionId)
    (now : Instant) : Pull where
  serial := registry.pullsLogged + 1
  arm := arm.id
  loggedAt := now
  decision
  context
  outcome := none
  contest := arm.contest
  role := arm.role

/-- A registry after a pull was put on record, with the arm as the selection leaves it. -/
def withPull (registry : Registry) (arm : Arm) (pull : Pull) : Registry :=
  { registry with
    arms := registry.arms.insert arm.id arm
    histories := registry.histories.update pull.contest.symbol [] (· ++ [pull])
    decisions := registry.decisions.insert pull.decision pull.contest.symbol
    pullsLogged := registry.pullsLogged + 1 }

/-- A selection of an arm is logged where the arm's counter has room for it. -/
theorem logPull_of_lt (hsound : registry.Sound) {id : ObjectId} {arm : Arm}
    (hfound : registry.arms.find? id = some arm) (hroom : arm.stats.pulls + 1 < Word64.size)
    (context : Context) (decision : DecisionId) (halfLife : Span) (now : Instant) :
    registry.logPull id context decision halfLife now =
      .ok (registry.withPull (arm.pulled halfLife now)
          (registry.nextPull arm context decision now),
        .ok (registry.nextPull arm context decision now)) := by
  obtain rfl := hsound.id_eq hfound
  unfold logPull
  rw [hfound]
  dsimp only
  rw [Stats.registerPull_of_lt hroom]
  rfl

theorem logPull_of_le {id : ObjectId} {arm : Arm} (hfound : registry.arms.find? id = some arm)
    (hfull : Word64.size ≤ arm.stats.pulls + 1) (context : Context) (decision : DecisionId)
    (halfLife : Span) (now : Instant) :
    registry.logPull id context decision halfLife now = .error .counterOverflow := by
  unfold logPull
  rw [hfound]
  dsimp only
  rw [Stats.registerPull_of_le hfull]
  rfl

theorem logPull_of_missing {id : ObjectId} (hmissing : registry.arms.find? id = none)
    (context : Context) (decision : DecisionId) (halfLife : Span) (now : Instant) :
    registry.logPull id context decision halfLife now =
      .ok (registry, .error (.unknownArm id)) := by
  simp only [logPull, hmissing]

/-- In a sound registry a pull is refused for want of its arm, or put on record. -/
theorem logPull_spec (hsound : registry.Sound) {id : ObjectId} {context : Context}
    {decision : DecisionId} {halfLife : Span} {now : Instant} {answer : Except Refusal Pull}
    (hlog : registry.logPull id context decision halfLife now = .ok (next, answer)) :
    (registry.arms.find? id = none ∧ next = registry ∧ answer = .error (.unknownArm id)) ∨
      ∃ arm, registry.arms.find? id = some arm ∧ arm.stats.pulls + 1 < Word64.size ∧
        next = registry.withPull (arm.pulled halfLife now)
          (registry.nextPull arm context decision now) ∧
        answer = .ok (registry.nextPull arm context decision now) := by
  cases hfound : registry.arms.find? id with
  | none =>
    rw [logPull_of_missing hfound] at hlog
    obtain ⟨rfl, rfl⟩ := Prod.mk.inj (Except.ok.inj hlog)
    exact .inl ⟨rfl, rfl, rfl⟩
  | some arm =>
    by_cases hroom : arm.stats.pulls + 1 < Word64.size
    · rw [logPull_of_lt hsound hfound hroom] at hlog
      obtain ⟨rfl, rfl⟩ := Prod.mk.inj (Except.ok.inj hlog)
      exact .inr ⟨arm, rfl, hroom, rfl, rfl⟩
    · rw [logPull_of_le hfound (Nat.not_lt.mp hroom)] at hlog
      cases hlog

/-- Logging a selection, of a registry that is sound or not, changes at most the record of the arm
that it looks up and the log. -/
theorem logPull_cases {id : ObjectId} {context : Context} {decision : DecisionId}
    {halfLife : Span} {now : Instant} {answer : Except Refusal Pull}
    (hlog : registry.logPull id context decision halfLife now = .ok (next, answer)) :
    next = registry ∨ ∃ arm stats histories decisions, registry.arms.find? id = some arm ∧
      next = { registry with
        arms := registry.arms.insert id { arm with stats, updatedAt := now }
        histories
        decisions
        pullsLogged := registry.pullsLogged + 1 } := by
  unfold logPull at hlog
  split at hlog
  · simp only [Except.ok.injEq, Prod.mk.injEq] at hlog
    exact .inl hlog.1.symm
  · next arm hfound =>
    simp only [Fault.bind_eq_ok_iff, Fault.pure_eq_ok_iff, Prod.mk.injEq] at hlog
    obtain ⟨stats, -, hnext, -⟩ := hlog
    exact .inr ⟨arm, stats, _, _, hfound, hnext.symm⟩

theorem ledgers_logPull {id : ObjectId} {context : Context} {decision : DecisionId}
    {halfLife : Span} {now : Instant} {answer : Except Refusal Pull}
    (hlog : registry.logPull id context decision halfLife now = .ok (next, answer)) :
    next.ledgers = registry.ledgers := by
  obtain rfl | ⟨arm, stats, histories, decisions, -, rfl⟩ := logPull_cases hlog
  · rfl
  · rfl

/-- Logging a selection leaves every arm its standing. -/
theorem sameArms_logPull {id : ObjectId} {context : Context} {decision : DecisionId}
    {halfLife : Span} {now : Instant} {answer : Except Refusal Pull}
    (hlog : registry.logPull id context decision halfLife now = .ok (next, answer)) :
    SameArms Arm.standing registry next := by
  obtain rfl | ⟨arm, stats, histories, decisions, hfound, rfl⟩ := logPull_cases hlog
  · exact .refl _ _
  · have hinserted : SameArms Arm.standing registry { registry with
        arms := registry.arms.insert id { arm with stats, updatedAt := now } } :=
      .insert hfound rfl
    exact ⟨hinserted.idsOf, hinserted.armsDrawn, hinserted.arms⟩

/-- A pull is put at the end of its symbol's history, and nowhere else. -/
theorem historyOf_withPull (registry : Registry) (arm : Arm) (pull : Pull) (symbol : String) :
    (registry.withPull arm pull).historyOf symbol =
      if symbol = pull.contest.symbol then registry.historyOf symbol ++ [pull]
      else registry.historyOf symbol := by
  unfold historyOf withPull
  rw [Table.find?_update]
  by_cases h : symbol = pull.contest.symbol
  · simp [h]
  · simp [h]

theorem sameArms_withPull {arm changed : Arm} (hfound : registry.arms.find? arm.id = some arm)
    (hsame : changed.identity = arm.identity) (pull : Pull) :
    SameArms Arm.identity registry (registry.withPull changed pull) := by
  have hid : changed.id = arm.id := congrArg Prod.fst hsame
  have hinserted : SameArms Arm.identity registry
      { registry with arms := registry.arms.insert arm.id changed } := .insert hfound hsame
  refine ⟨hinserted.idsOf, hinserted.armsDrawn, ?_⟩
  rw [← hid] at hinserted
  exact hinserted.arms

/-! ## Resolving a decision -/

def withOutcome (registry : Registry) (symbol : String) (resolved : Pull) : Registry :=
  { registry with
    histories := registry.histories.modify symbol (resolveIn resolved.decision resolved) }

/-- A decision is found through the symbol under which it is filed. -/
theorem locate?_eq_some_iff (decision : DecisionId) (symbol : String) (pull : Pull) :
    registry.locate? decision = some (symbol, pull) ↔
      registry.decisions.find? decision = some symbol ∧
        (registry.historyOf symbol).find? (fun pull => pull.decision = decision) =
          some pull := by
  unfold locate?
  cases hsymbol : registry.decisions.find? decision with
  | none => simp
  | some filed =>
    cases hpull : (registry.historyOf filed).find? (fun pull => pull.decision = decision) with
    | none =>
      constructor
      · intro h
        simp [hpull] at h
      · rintro ⟨heq, hfound⟩
        obtain rfl := Option.some.inj heq
        rw [hpull] at hfound
        cases hfound
    | some stored =>
      constructor
      · intro h
        simp only [hpull, Option.bind_eq_bind, Option.bind_some, Option.pure_def,
          Option.some.injEq, Prod.mk.injEq] at h
        obtain ⟨rfl, rfl⟩ := h
        exact ⟨rfl, hpull⟩
      · rintro ⟨heq, hfound⟩
        obtain rfl := Option.some.inj heq
        rw [hpull] at hfound
        obtain rfl := Option.some.inj hfound
        simp [hpull]

/-- Resolving a decision has four outcomes: it is not on record, it is resolved already, its arm is
gone, or its reward is fed to its arm. -/
theorem applyReward_cases {decision : DecisionId} {outcome : Outcome} {halfLife : Span}
    {now : Instant} {answer : Except Refusal Pull}
    (happly : registry.applyReward decision outcome halfLife now = .ok (next, answer)) :
    (registry.locate? decision = none ∧ next = registry ∧
        answer = .error (.unknownDecision decision)) ∨
      ∃ symbol pull, registry.locate? decision = some (symbol, pull) ∧
        ((pull.resolved = true ∧ next = registry ∧ answer = .ok pull) ∨
          (pull.resolved = false ∧ registry.arms.find? pull.arm = none ∧
            next = registry.withOutcome symbol { pull with outcome := some outcome } ∧
            answer = .error (.unknownArm pull.arm)) ∨
          (pull.resolved = false ∧ ∃ arm stats, registry.arms.find? pull.arm = some arm ∧
            arm.stats.recordReward outcome.reward halfLife now = .ok stats ∧
            next = { registry.withOutcome symbol { pull with outcome := some outcome } with
              arms := registry.arms.insert pull.arm { arm with stats, updatedAt := now } } ∧
            answer = .ok { pull with outcome := some outcome })) := by
  unfold applyReward at happly
  cases hlocated : registry.locate? decision with
  | none =>
    simp only [hlocated, Except.ok.injEq, Prod.mk.injEq] at happly
    exact .inl ⟨rfl, happly.1.symm, happly.2.symm⟩
  | some located =>
    obtain ⟨symbol, pull⟩ := located
    have hdecision : pull.decision = decision := by
      simpa using List.find?_some ((locate?_eq_some_iff decision symbol pull).mp hlocated).2
    subst hdecision
    refine .inr ⟨symbol, pull, rfl, ?_⟩
    simp only [hlocated] at happly
    cases hresolved : pull.resolved with
    | true =>
      simp only [hresolved, if_true, Except.ok.injEq, Prod.mk.injEq] at happly
      exact .inl ⟨rfl, happly.1.symm, happly.2.symm⟩
    | false =>
      refine .inr ?_
      simp only [hresolved, Bool.false_eq_true, if_false] at happly
      cases hfound : registry.arms.find? pull.arm with
      | none =>
        simp only [hfound, Except.ok.injEq, Prod.mk.injEq] at happly
        exact .inl ⟨rfl, rfl, happly.1.symm, happly.2.symm⟩
      | some arm =>
        simp only [hfound, Fault.bind_eq_ok_iff, Fault.pure_eq_ok_iff, Prod.mk.injEq] at happly
        obtain ⟨stats, hstats, hnext, hanswer⟩ := happly
        exact .inr ⟨rfl, arm, stats, rfl, hstats, hnext.symm, hanswer.symm⟩

/-- Resolving changes the history of the decision's symbol only. -/
theorem historyOf_withOutcome (registry : Registry) (symbol : String) (resolved : Pull)
    (other : String) :
    (registry.withOutcome symbol resolved).historyOf other =
      if other = symbol then resolveIn resolved.decision resolved (registry.historyOf symbol)
      else registry.historyOf other := by
  unfold historyOf withOutcome
  rw [Table.find?_modify]
  by_cases h : other = symbol
  · cases hfound : registry.histories.find? symbol <;> simp [h, resolveIn]
  · simp [h]

theorem index_applyReward {decision : DecisionId} {outcome : Outcome} {halfLife : Span}
    {now : Instant} {answer : Except Refusal Pull}
    (happly : registry.applyReward decision outcome halfLife now = .ok (next, answer)) :
    next.index = registry.index := by
  obtain ⟨-, rfl, -⟩ | ⟨symbol, pull, -, ⟨-, rfl, -⟩ | ⟨-, -, rfl, -⟩ |
    ⟨-, arm, stats, -, -, rfl, -⟩⟩ := applyReward_cases happly
  all_goals rfl

/-- Resolving a decision leaves every arm its standing. -/
theorem sameArms_applyReward {decision : DecisionId} {outcome : Outcome} {halfLife : Span}
    {now : Instant} {answer : Except Refusal Pull}
    (happly : registry.applyReward decision outcome halfLife now = .ok (next, answer)) :
    SameArms Arm.standing registry next := by
  obtain ⟨-, rfl, -⟩ | ⟨symbol, pull, -, ⟨-, rfl, -⟩ | ⟨-, -, rfl, -⟩ |
    ⟨-, arm, stats, hfound, -, rfl, -⟩⟩ := applyReward_cases happly
  · exact .refl _ next
  · exact .refl _ next
  · exact ⟨fun _ => rfl, rfl, fun _ => rfl⟩
  · have hinserted : SameArms Arm.standing registry { registry with
        arms := registry.arms.insert pull.arm { arm with stats, updatedAt := now } } :=
      .insert hfound rfl
    exact ⟨hinserted.idsOf, hinserted.armsDrawn, hinserted.arms⟩

theorem map_resolveIn {β : Type} (view : Pull → β) {pull resolved : Pull} {pulls : List Pull}
    (hview : view resolved = view pull)
    (hfound : pulls.find? (fun other => other.decision = resolved.decision) = some pull) :
    (resolveIn resolved.decision resolved pulls).map view = pulls.map view := by
  induction pulls with
  | nil => rfl
  | cons first rest ih =>
    by_cases hfirst : first.decision = resolved.decision
    · rw [List.find?_cons_of_pos (by simpa using hfirst)] at hfound
      obtain rfl := Option.some.inj hfound
      simp [resolveIn, hfirst, hview]
    · rw [List.find?_cons_of_neg (by simpa using hfirst)] at hfound
      simp [resolveIn, hfirst, ih hfound]

/-- Resolving a decision changes nothing in the histories but an outcome. -/
theorem map_historyOf_applyReward {β : Type} {view : Pull → β}
    (hview : ∀ (pull : Pull) (outcome : Option Outcome),
      view { pull with outcome } = view pull)
    {decision : DecisionId} {outcome : Outcome} {halfLife : Span} {now : Instant}
    {answer : Except Refusal Pull}
    (happly : registry.applyReward decision outcome halfLife now = .ok (next, answer))
    (symbol : String) :
    (next.historyOf symbol).map view = (registry.historyOf symbol).map view := by
  have hresolved : ∀ filed pull, registry.locate? decision = some (filed, pull) →
      ((registry.withOutcome filed { pull with outcome := some outcome }).historyOf symbol).map
        view = (registry.historyOf symbol).map view := by
    intro filed pull hlocated
    obtain ⟨-, hfound⟩ := (locate?_eq_some_iff decision filed pull).mp hlocated
    obtain rfl : pull.decision = decision := by simpa using List.find?_some hfound
    rw [historyOf_withOutcome]
    split
    · next heq =>
      rw [heq]
      exact map_resolveIn view (hview pull (some outcome)) hfound
    · rfl
  obtain ⟨-, rfl, -⟩ | ⟨filed, pull, hlocated, ⟨-, rfl, -⟩ | ⟨-, -, rfl, -⟩ |
    ⟨-, arm, stats, -, -, rfl, -⟩⟩ := applyReward_cases happly
  · rfl
  · rfl
  · exact hresolved filed pull hlocated
  · exact hresolved filed pull hlocated

/-- Where decisions are distinct, resolving one replaces its pull and keeps all others. -/
theorem mem_resolveIn_iff {resolved : Pull} {pulls : List Pull}
    (hdistinct : (pulls.map Pull.decision).Nodup)
    (hfiled : resolved.decision ∈ pulls.map Pull.decision) (pull : Pull) :
    pull ∈ resolveIn resolved.decision resolved pulls ↔
      pull = resolved ∨ pull ∈ pulls ∧ pull.decision ≠ resolved.decision := by
  induction pulls with
  | nil => cases hfiled
  | cons first rest ih =>
    simp only [List.map_cons, List.nodup_cons] at hdistinct
    by_cases hfirst : first.decision = resolved.decision
    · have hrest : ∀ other ∈ rest, other.decision ≠ resolved.decision := fun other hother heq =>
        hdistinct.1 (hfirst ▸ heq ▸ List.mem_map_of_mem hother)
      simp only [resolveIn, if_pos hfirst, List.mem_cons]
      constructor
      · rintro (rfl | hpull)
        · exact .inl rfl
        · exact .inr ⟨.inr hpull, hrest pull hpull⟩
      · rintro (rfl | ⟨rfl | hpull, hne⟩)
        · exact .inl rfl
        · exact absurd hfirst hne
        · exact .inr hpull
    · have hfiled : resolved.decision ∈ rest.map Pull.decision := by
        simpa [Ne.symm hfirst] using hfiled
      simp only [resolveIn, if_neg hfirst, List.mem_cons, ih hdistinct.2 hfiled]
      constructor
      · rintro (rfl | rfl | ⟨hpull, hne⟩)
        · exact .inr ⟨.inl rfl, hfirst⟩
        · exact .inl rfl
        · exact .inr ⟨.inr hpull, hne⟩
      · rintro (rfl | ⟨rfl | hpull, hne⟩)
        · exact .inr (.inl rfl)
        · exact .inl rfl
        · exact .inr (.inr ⟨hpull, hne⟩)

/-! ## Pruning -/

theorem historyOf_prunePulls (cutoff : Instant) (registry : Registry) (symbol : String) :
    (registry.prunePulls cutoff).1.historyOf symbol =
      (registry.historyOf symbol).filter fun pull => !decide (pull.loggedAt < cutoff) := by
  simp only [historyOf, prunePulls, Table.find?_mapValues]
  cases registry.histories.find? symbol <;> rfl

/-- The pulls of all symbols are those of some symbol's history. -/
theorem mem_histories_iff (registry : Registry) (pull : Pull) :
    pull ∈ registry.histories.values.flatten ↔ ∃ symbol, pull ∈ registry.historyOf symbol := by
  simp only [List.mem_flatten, Table.mem_values_iff]
  constructor
  · rintro ⟨pulls, ⟨symbol, hfound⟩, hpull⟩
    exact ⟨symbol, by simpa [historyOf, hfound] using hpull⟩
  · rintro ⟨symbol, hpull⟩
    cases hfound : registry.histories.find? symbol with
    | none => simp [historyOf, hfound] at hpull
    | some pulls => exact ⟨pulls, ⟨symbol, hfound⟩, by simpa [historyOf, hfound] using hpull⟩

/-- A decision stays on record unless one of its pulls is pruned. -/
theorem find?_decisions_prunePulls (cutoff : Instant) (registry : Registry)
    (decision : DecisionId) (symbol : String) :
    (registry.prunePulls cutoff).1.decisions.find? decision = some symbol ↔
      registry.decisions.find? decision = some symbol ∧
        ∀ other, ∀ pull ∈ registry.historyOf other, pull.loggedAt < cutoff →
          pull.decision ≠ decision := by
  simp only [prunePulls, Table.find?_filter, Option.filter_eq_some_iff, Bool.not_eq_true',
    List.contains_eq_mem, decide_eq_false_iff_not, List.mem_map, List.mem_filter,
    decide_eq_true_eq, mem_histories_iff]
  constructor
  · rintro ⟨hfiled, hkept⟩
    exact ⟨hfiled, fun other pull hpull hexpired heq =>
      hkept ⟨pull, ⟨⟨other, hpull⟩, hexpired⟩, heq⟩⟩
  · rintro ⟨hfiled, hkept⟩
    refine ⟨hfiled, ?_⟩
    rintro ⟨pull, ⟨⟨other, hpull⟩, hexpired⟩, heq⟩
    exact hkept other pull hpull hexpired heq

/-! ## Charging a ledger -/

theorem chargeLedger_eq_ok_iff {symbol : String} {candidate : Bool} {now : Instant} :
    registry.chargeLedger symbol candidate now = .ok next ↔
      next = { registry with
        ledgers := registry.ledgers.insert symbol
          ⟨now.day, (registry.ledgerOn symbol now).total + 1,
            (registry.ledgerOn symbol now).candidates + candidate.toNat⟩ } ∧
      (registry.ledgerOn symbol now).total + 1 < Word64.size ∧
      (candidate = true → (registry.ledgerOn symbol now).candidates + 1 < Word64.size) := by
  simp only [chargeLedger, Fault.bind_eq_ok_iff, Fault.pure_eq_ok_iff,
    Ledger.charge_eq_ok_iff]
  constructor
  · rintro ⟨ledger, ⟨rfl, hroom⟩, rfl⟩
    refine ⟨?_, hroom⟩
    simp only [ledgerOn, Ledger.day_onDay]
  · rintro ⟨rfl, hroom⟩
    refine ⟨_, ⟨rfl, hroom⟩, ?_⟩
    simp only [ledgerOn, Ledger.day_onDay]

end Registry

end ExposureControl
