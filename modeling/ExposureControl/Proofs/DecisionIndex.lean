import ExposureControl.Proofs.Attribution
import ExposureControl.Proofs.Pruning

/-!
# The index of decisions

Pulls are kept in one history for each symbol, and a table tells in which of them the pull of a
decision is found.  As long as no decision is used twice, the table lists exactly the decisions of
the pulls on record, whatever is restored, resolved or pruned in between.  So a prune forgets
neither more nor less than the pulls before its cutoff.
-/

namespace ExposureControl

/-- The decisions under which the turns put pulls on record. -/
def filedDecisions (turns : List Turn) : List DecisionId :=
  turns.filterMap fun turn => turn.filed?.map Prod.fst

namespace Registry

variable {before after registry : Registry}

def decisionsOf (registry : Registry) (symbol : String) : List DecisionId :=
  (registry.historyOf symbol).map Pull.decision

/-- Whether the table of decisions names exactly the decisions of each history, of which none has
one twice. -/
structure Indexed (registry : Registry) : Prop where
  find?_iff : ∀ decision symbol,
    registry.decisions.find? decision = some symbol ↔ decision ∈ registry.decisionsOf symbol
  nodup : ∀ symbol, (registry.decisionsOf symbol).Nodup

theorem Indexed.filed (hindexed : registry.Indexed) : registry.Filed :=
  ⟨fun hpull => (hindexed.find?_iff _ _).mpr (List.mem_map_of_mem hpull), hindexed.nodup⟩

/-- Two registries with the same decisions on record, whatever became of their pulls. -/
structure SameDecisions (before after : Registry) : Prop where
  decisions : after.decisions = before.decisions
  decisionsOf : ∀ symbol, after.decisionsOf symbol = before.decisionsOf symbol

theorem SamePulls.sameDecisions (hsame : SamePulls before after) : SameDecisions before after :=
  ⟨hsame.decisions, fun symbol => by rw [Registry.decisionsOf, hsame.historyOf]; rfl⟩

theorem sameDecisions_applyReward {decision : DecisionId} {outcome : Outcome} {halfLife : Span}
    {now : Instant} {answer : Except Refusal Pull}
    (happly : before.applyReward decision outcome halfLife now = .ok (after, answer)) :
    SameDecisions before after := by
  refine ⟨?_, map_historyOf_applyReward (fun _ _ => rfl) happly⟩
  obtain ⟨-, rfl, -⟩ | ⟨symbol, pull, -, ⟨-, rfl, -⟩ | ⟨-, -, rfl, -⟩ |
    ⟨-, arm, stats, -, -, rfl, -⟩⟩ := applyReward_cases happly
  all_goals rfl

/-- Whether a registry has one pull more, of a certain decision. -/
def Logs (decision : DecisionId) (before after : Registry) : Prop :=
  ∃ arm pull, pull.decision = decision ∧ SamePulls (before.withPull arm pull) after

theorem AddsPull.logs {pull : Pull} (hadds : AddsPull pull before after) :
    Logs pull.decision before after := by
  obtain ⟨arm, hpulls⟩ := hadds.samePulls
  exact ⟨arm, pull, rfl, hpulls⟩

/-! ## What keeps the index -/

namespace Indexed

theorem ofSameDecisions (hindexed : before.Indexed) (hsame : SameDecisions before after) :
    after.Indexed where
  find?_iff decision symbol := by
    rw [hsame.decisions, hsame.decisionsOf, hindexed.find?_iff]
  nodup symbol := by
    rw [hsame.decisionsOf]
    exact hindexed.nodup symbol

theorem ofLogs (hindexed : before.Indexed) {decision : DecisionId}
    (hnew : before.decisions.find? decision = none) (hlogs : Logs decision before after) :
    after.Indexed := by
  obtain ⟨arm, pull, rfl, hpulls⟩ := hlogs
  have hunused : ∀ symbol, pull.decision ∉ before.decisionsOf symbol := by
    intro symbol hmem
    rw [← hindexed.find?_iff, hnew] at hmem
    cases hmem
  have hadded : ∀ symbol, after.decisionsOf symbol =
      if symbol = pull.contest.symbol then before.decisionsOf symbol ++ [pull.decision]
      else before.decisionsOf symbol := by
    intro symbol
    rw [decisionsOf, hpulls.historyOf, historyOf_withPull]
    split <;> simp [decisionsOf]
  refine ⟨fun decision symbol => ?_, fun symbol => ?_⟩
  · rw [hpulls.decisions, withPull, Table.find?_insert, hadded]
    by_cases hdecision : decision = pull.decision
    · subst hdecision
      by_cases hsymbol : symbol = pull.contest.symbol
      · simp [hsymbol]
      · simp [hsymbol, Ne.symm hsymbol, hunused]
    · by_cases hsymbol : symbol = pull.contest.symbol
      · simp [hsymbol, hdecision, hindexed.find?_iff]
      · simp [hsymbol, hdecision, hindexed.find?_iff]
  · rw [hadded]
    split
    · rw [← List.concat_eq_append, List.nodup_concat]
      exact ⟨hunused symbol, hindexed.nodup symbol⟩
    · exact hindexed.nodup symbol

theorem prunePulls (hindexed : registry.Indexed) (cutoff : Instant) :
    (registry.prunePulls cutoff).1.Indexed := by
  have hfiled := filed_prunePulls hindexed.filed cutoff
  refine ⟨fun decision symbol => ⟨fun hfound => ?_, fun hmem => ?_⟩, hfiled.nodup⟩
  · obtain ⟨hbefore, hkept⟩ :=
      (find?_decisions_prunePulls cutoff registry decision symbol).mp hfound
    obtain ⟨pull, hpull, rfl⟩ := List.mem_map.mp ((hindexed.find?_iff _ _).mp hbefore)
    exact List.mem_map_of_mem ((mem_historyOf_prunePulls cutoff registry symbol pull).mpr
      ⟨hpull, fun hexpired => hkept symbol pull hpull hexpired rfl⟩)
  · obtain ⟨pull, hpull, rfl⟩ := List.mem_map.mp hmem
    exact hfiled.filed hpull

end Indexed

theorem indexed_empty : Registry.empty.Indexed where
  find?_iff decision symbol := by
    simp [empty, decisionsOf, historyOf]
  nodup _ := List.nodup_nil

end Registry

/-! ## Steps -/

/-- A step logs a pull under the decision that it files, or it files none and keeps the decisions
on record or prunes them. -/
theorem ArenaStep.indexing_cases {governor next : Governor} {command : Command}
    {answer : Except Refusal Reply} (hstep : ArenaStep governor command answer next.arena) :
    let turn : Turn := ⟨governor, command, answer, next⟩
    (turn.filed? = none ∧ (Registry.SameDecisions governor.registry next.registry ∨
      ∃ cutoff, next.registry = (governor.registry.prunePulls cutoff).1)) ∨
    ∃ decision symbol, turn.filed? = some (decision, symbol) ∧
      Registry.Logs decision governor.registry next.registry := by
  obtain ⟨settings, seeding, clock, arena, costs, shadow, monitor, gate, notifier⟩ := next
  dsimp only at hstep
  have hkept : ∀ {after : Registry}, Registry.SameRecords governor.registry after →
      Registry.SameDecisions governor.registry after := fun hsame => hsame.toSamePulls.sameDecisions
  cases hstep with
  | spared hspared =>
    refine .inl ⟨Turn.filed?_of_not_files ?_ ?_, .inl (hkept (.refl _))⟩
    · rintro contest context rfl
      cases hspared
    · rintro arm decision context halfLife time rfl
      cases hspared
  | ensureArms contest offers => exact .inl ⟨rfl, .inl (hkept (.ensureArms contest offers _ _))⟩
  | restoreArm arm => exact .inl ⟨rfl, .inl (hkept (.restoreArm arm _))⟩
  | setStatus id status => exact .inl ⟨rfl, .inl (hkept (.setStatus id status _ _))⟩
  | setPresetStatus preset status =>
    exact .inl ⟨rfl, .inl (hkept (.setPresetStatus preset status _ _))⟩
  | resetArms contest => exact .inl ⟨rfl, .inl (hkept (.resetStats contest _ _))⟩
  | select hselect =>
    obtain ⟨⟨refusal, rfl⟩, hsame⟩ | ⟨selection, pull, rfl, hpull, hadds⟩ :=
      Arena.adds_of_select hselect
    · refine .inl ⟨rfl, .inl ?_⟩
      change Registry.SameDecisions governor.registry arena.registry
      rw [hsame]
      exact hkept (.refl _)
    · obtain ⟨-, hdecision, -⟩ := Registry.pullFor?_eq_some hpull
      exact .inr ⟨_, _, rfl, hdecision ▸ hadds.logs⟩
  | @report _ _ _ _ _ hreport hrecord =>
    have hturn : ∀ answer next, (⟨governor, command, answer, next⟩ : Turn).filed? = none := by
      intro answer next
      cases command with
      | recordOutcome | recordTrade => rfl
      | _ => cases hreport
    obtain ⟨-, rfl, -⟩ | ⟨usable, registry, result, -, happly, rfl, -⟩ :=
      Arena.recordOutcome_cases hrecord
    · exact .inl ⟨hturn _ _, .inl (hkept (.refl _))⟩
    · exact .inl ⟨hturn _ _, .inl (Registry.sameDecisions_applyReward happly)⟩
  | logPull hlog =>
    obtain ⟨⟨refusal, rfl⟩, rfl⟩ | ⟨pull, rfl, -, hadds⟩ := Registry.adds_of_logPull hlog
    · exact .inl ⟨rfl, .inl (hkept (.refl _))⟩
    · exact .inr ⟨_, _, rfl, hadds.logs⟩
  | applyReward happly => exact .inl ⟨rfl, .inl (Registry.sameDecisions_applyReward happly)⟩
  | chargeLedger hcharge =>
    obtain ⟨rfl, -⟩ := Registry.chargeLedger_eq_ok_iff.mp hcharge
    exact .inl ⟨rfl, .inl ⟨rfl, fun _ => rfl⟩⟩
  | seedLedger => exact .inl ⟨rfl, .inl ⟨rfl, fun _ => rfl⟩⟩
  | @prune _ cutoff _ hcutoff =>
    refine .inl ⟨?_, .inr ⟨cutoff, rfl⟩⟩
    cases command with
    | prunePulls | pruneExpired => rfl
    | _ => cases hcutoff

variable {start governor : Governor} {turns : List Turn}

/-- As long as no decision is used twice, the table of decisions lists exactly those on record, and
every one of them was put there by a turn. -/
theorem History.indexed (hhistory : History start turns governor)
    (hempty : start.registry = .empty) (hdistinct : (filedDecisions turns).Nodup) :
    governor.registry.Indexed ∧ ∀ decision symbol,
      governor.registry.decisions.find? decision = some symbol →
        decision ∈ filedDecisions turns := by
  induction hhistory with
  | start =>
    rw [hempty]
    exact ⟨Registry.indexed_empty, fun _ _ hfound => absurd hfound nofun⟩
  | @turn turns before next command answer past step ih =>
    obtain ⟨hnone, hkept⟩ | ⟨decision, symbol, hfiled, hlogs⟩ :=
      (Governor.arenaStep_of_step step).1.indexing_cases
    · -- nothing is filed, so the decisions in use are those from before
      have hsame : filedDecisions (⟨before, command, answer, next⟩ :: turns) =
          filedDecisions turns := by
        rw [filedDecisions, List.filterMap_cons_none (by rw [hnone]; rfl), filedDecisions]
      rw [hsame] at hdistinct ⊢
      obtain ⟨hindexed, hused⟩ := ih hdistinct
      obtain hsame | ⟨cutoff, hpruned⟩ := hkept
      · refine ⟨hindexed.ofSameDecisions hsame, fun decision symbol hfound => ?_⟩
        rw [hsame.decisions] at hfound
        exact hused decision symbol hfound
      · rw [hpruned]
        refine ⟨hindexed.prunePulls cutoff, fun decision symbol hfound => ?_⟩
        exact hused decision symbol
          ((Registry.find?_decisions_prunePulls cutoff _ decision symbol).mp hfound).1
    · have hadded : filedDecisions (⟨before, command, answer, next⟩ :: turns) =
          decision :: filedDecisions turns := by
        rw [filedDecisions, List.filterMap_cons_some (by rw [hfiled]; rfl), filedDecisions]
      rw [hadded] at hdistinct ⊢
      obtain ⟨hunused, hdistinct⟩ := List.nodup_cons.mp hdistinct
      obtain ⟨hindexed, hused⟩ := ih hdistinct
      have hnew : before.registry.decisions.find? decision = none := by
        cases hfound : before.registry.decisions.find? decision with
        | none => rfl
        | some symbol => exact absurd (hused decision symbol hfound) hunused
      refine ⟨hindexed.ofLogs hnew hlogs, fun found symbol hfound => ?_⟩
      obtain ⟨arm, pull, rfl, hpulls⟩ := hlogs
      rw [hpulls.decisions, Registry.withPull, Table.find?_insert] at hfound
      split at hfound
      · next hsame =>
        rw [hsame]
        exact List.mem_cons_self
      · exact List.mem_cons_of_mem _ (hused found symbol hfound)

end ExposureControl
