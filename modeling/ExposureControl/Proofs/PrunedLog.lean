import ExposureControl.Proofs.DecisionIndex
import ExposureControl.Proofs.Refusals

/-!
# What a prune leaves of the log

A prune drops the pulls before its cutoff from all histories and forgets their decisions.  Two
prunes leave what the one with the later cutoff leaves, and drop as many pulls between them.
-/

namespace ExposureControl

namespace Registry

variable {registry : Registry}

/-- How often a decision is that of a pull on record, of whatever symbol. -/
def pullsOf (registry : Registry) (decision : DecisionId) : Nat :=
  registry.histories.values.flatten.countP fun pull => pull.decision = decision

/-- What a prune does that drops the pulls before a cutoff, and nothing else. -/
structure PrunesExactly (registry : Registry) (cutoff : Instant) : Prop where
  /-- A decision finds its pull, unchanged, unless that was logged before the cutoff. -/
  findPull?_iff : ∀ decision pull,
    (registry.prunePulls cutoff).1.findPull? decision = some pull ↔
      (∃ symbol, pull ∈ registry.historyOf symbol) ∧ pull.decision = decision ∧
        cutoff ≤ pull.loggedAt
  /-- A reward for a decision whose pull was dropped is refused. -/
  refused : ∀ symbol, ∀ pull ∈ registry.historyOf symbol, pull.loggedAt < cutoff →
    ∀ outcome halfLife now,
      (registry.prunePulls cutoff).1.applyReward pull.decision outcome halfLife now =
        .ok ((registry.prunePulls cutoff).1, .error (.unknownDecision pull.decision))
  /-- Every history keeps the pulls logged at the cutoff or later, in their order. -/
  kept : ∀ symbol, (registry.prunePulls cutoff).1.historyOf symbol =
    (registry.historyOf symbol).filter fun pull => cutoff ≤ pull.loggedAt
  /-- What is counted is what is missing afterwards. -/
  counted : (registry.prunePulls cutoff).1.pullsStored + (registry.prunePulls cutoff).2 =
    registry.pullsStored
  /-- Nothing but histories and decisions changes. -/
  frame : ∃ histories decisions,
    (registry.prunePulls cutoff).1 = { registry with histories, decisions }

/-! ## Indexed registries -/

theorem Indexed.exists_find?_iff (hindexed : registry.Indexed) (decision : DecisionId) :
    (∃ symbol, registry.decisions.find? decision = some symbol) ↔
      registry.pullsOf decision = 1 := by
  have hcount : registry.pullsOf decision =
      (registry.histories.values.flatten.map Pull.decision).count decision := by
    rw [pullsOf, List.count, List.countP_map]
    exact List.countP_congr fun pull _ => by simp
  have hdistinct : registry.DistinctDecisions := .of_filed hindexed.filed
  have hmem : (∃ symbol, registry.decisions.find? decision = some symbol) ↔
      decision ∈ registry.histories.values.flatten.map Pull.decision := by
    simp only [hindexed.find?_iff, decisionsOf, List.mem_map, mem_histories_iff]
    constructor
    · rintro ⟨symbol, pull, hpull, hdecision⟩
      exact ⟨pull, ⟨symbol, hpull⟩, hdecision⟩
    · rintro ⟨pull, ⟨symbol, hpull⟩, hdecision⟩
      exact ⟨symbol, pull, hpull, hdecision⟩
  rw [hmem, hcount]
  exact ⟨List.count_eq_one_of_mem hdistinct, fun hone => List.count_pos_iff.mp (by omega)⟩

theorem Indexed.prunesExactly (hindexed : registry.Indexed) (cutoff : Instant) :
    registry.PrunesExactly cutoff where
  findPull?_iff decision pull := by
    rw [(hindexed.prunePulls cutoff).filed.findPull?_eq_some_iff]
    simp only [mem_historyOf_prunePulls]
    constructor
    · rintro ⟨symbol, ⟨hpull, hkept⟩, hdecision⟩
      exact ⟨⟨symbol, hpull⟩, hdecision, Int.not_lt.mp hkept⟩
    · rintro ⟨⟨symbol, hpull⟩, hdecision, hkept⟩
      exact ⟨symbol, ⟨hpull, Int.not_lt.mpr hkept⟩, hdecision⟩
  refused symbol pull hpull hexpired outcome halfLife now := by
    refine applyReward_of_missing ?_ outcome halfLife now
    cases hlocated : (registry.prunePulls cutoff).1.locate? pull.decision with
    | none => rfl
    | some located =>
      obtain ⟨other, found⟩ := located
      obtain ⟨hfound, hdecision⟩ :=
        ((hindexed.prunePulls cutoff).filed.locate?_eq_some_iff pull.decision).mp hlocated
      obtain ⟨hbefore, hkept⟩ := (mem_historyOf_prunePulls cutoff registry other found).mp hfound
      rw [(hindexed.filed.unique hpull hbefore hdecision).2] at hkept
      exact absurd hexpired hkept
  kept symbol := by simp only [historyOf_prunePulls, Instant.not_decide_lt]
  counted := pullsStored_prunePulls registry cutoff
  frame := ⟨_, _, rfl⟩

end Registry

/-- After any calls that use no decision twice, the table of decisions names a decision exactly if
one pull on record has it, which is in the named symbol's history, and a prune drops the pulls
before its cutoff and nothing else.  Two prunes are as good as one with the later cutoff. -/
theorem pruned_log {settings : Settings} {entropy : Seeding} {notifier : Notifier}
    {clock : Instant} {start governor : Governor} {turns : List Turn}
    (hcreate : Governor.create settings entropy notifier clock = .ok start)
    (hhistory : History start turns governor) (hdistinct : (filedDecisions turns).Nodup) :
    (∀ decision, (∃ symbol, governor.registry.decisions.find? decision = some symbol) ↔
      governor.registry.pullsOf decision = 1) ∧
    (∀ decision symbol, governor.registry.decisions.find? decision = some symbol →
      ∃ pull ∈ governor.registry.historyOf symbol, pull.decision = decision) ∧
    (∀ cutoff, governor.registry.PrunesExactly cutoff) ∧
    ∀ first second, let pruned := governor.registry.prunePulls first
      let again := pruned.1.prunePulls second
      (again.1, pruned.2 + again.2) = governor.registry.prunePulls (.latest first second) := by
  obtain ⟨-, -, hempty⟩ := Governor.create_eq_ok hcreate
  have hstart : start.registry = .empty := by
    rw [Governor.registry, hempty]
    rfl
  obtain ⟨hindexed, -⟩ := hhistory.indexed hstart hdistinct
  refine ⟨hindexed.exists_find?_iff, fun decision symbol hfound => ?_, hindexed.prunesExactly,
    fun first second => ?_⟩
  · obtain ⟨pull, hpull, hdecision⟩ := List.mem_map.mp ((hindexed.find?_iff _ _).mp hfound)
    exact ⟨pull, hpull, hdecision⟩
  · exact Prod.ext (Registry.prunePulls_prunePulls_latest _ first second)
      (Registry.count_prunePulls_prunePulls _ first second)

theorem pruned_log_of_late_entry :
    let arm (id : Nat) (symbol : String) : Arm :=
      .create (.given ⟨id⟩) ⟨symbol, "UP", .buy⟩ ⟨.given ⟨9⟩, .baseline⟩ ⟨0⟩
    let log (id : Nat) (decision : String) (time : Int) : Command :=
      .logPull (.given ⟨id⟩) (.given decision) .empty ⟨0⟩ ⟨time⟩
    ∃ (start : Governor) (turns : List Turn) (governor : Governor),
      Governor.create {} 0 .log ⟨0⟩ = .ok start ∧ History start turns governor ∧
      (turns.map Turn.command).reverse = [.restoreArm (arm 1 "BTC"), .restoreArm (arm 2 "ETH"),
        log 1 "first" 5, log 2 "other" 3, log 1 "late" 2] ∧
      (filedDecisions turns).Nodup ∧
      governor.registry.pullsOf (.given "late") = 1 ∧
      (governor.registry.prunePulls ⟨3⟩).2 = 1 ∧
      (governor.registry.prunePulls ⟨3⟩).1.findPull? (.given "late") = none ∧
      governor.registry.PrunesExactly ⟨3⟩ ∧
      ((governor.registry.prunePulls ⟨5⟩).1.prunePulls ⟨3⟩).1 =
        (governor.registry.prunePulls ⟨5⟩).1 := by
  intro arm log
  obtain ⟨start, turns, governor, hcreate, hhistory, hcommands, hcheck⟩ :=
    Governor.exists_history_of_replays {} [.restoreArm (arm 1 "BTC"), .restoreArm (arm 2 "ETH"),
      log 1 "first" 5, log 2 "other" 3, log 1 "late" 2] (fun turns governor =>
        (filedDecisions turns).Nodup ∧
        (governor.registry.decisions.find? (.given "late")).isSome ∧
        (governor.registry.prunePulls ⟨3⟩).2 = 1 ∧
        ((governor.registry.prunePulls ⟨3⟩).1.findPull? (.given "late")).isNone)
      (by decide +kernel)
  obtain ⟨hdistinct, hfiled, hcount, hlost⟩ := of_decide_eq_true hcheck
  obtain ⟨hindex, -, hexact, htwice⟩ := pruned_log hcreate hhistory hdistinct
  refine ⟨start, turns, governor, hcreate, hhistory, hcommands, hdistinct,
    (hindex _).mp (Option.isSome_iff_exists.mp hfiled), hcount,
    Option.isNone_iff_eq_none.mp hlost, hexact ⟨3⟩, (Prod.ext_iff.mp (htwice ⟨5⟩ ⟨3⟩)).1⟩

end ExposureControl
