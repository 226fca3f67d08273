import ExposureControl.Proofs.ArmOrigin
import ExposureControl.Proofs.Filing

/-!
# Whose a decision is

A decision belongs to the symbol for which a pull was first put on record under it, which a
selection does for a decision that it draws.  As long as no arm is restored, and no pull is logged
by hand under a decision in use, the table of decisions says the same as the history, and every
pull on record is the pull of an arm of its symbol.
-/

namespace ExposureControl

/-- The decision under which a turn put a pull on record, with the symbol for which it did so. -/
def Turn.filed? (turn : Turn) : Option (DecisionId × String) :=
  match turn.command, turn.answer with
  | .select contest _, .ok (.selection selection) => some (selection.decision, contest.symbol)
  | .logPull .., .ok (.pull (some pull)) => some (pull.decision, pull.contest.symbol)
  | _, _ => none

/-- The symbol for which a pull was put on record under a decision. -/
def decisionOwner? (decision : DecisionId) (turns : List Turn) : Option String :=
  turns.findSome? fun turn =>
    (turn.filed?.filter fun filed => filed.1 = decision).map Prod.snd

/-- Whether a command, if it logs a pull by hand, does so under a decision that is in use by no turn
before and that no selection will draw. -/
def Command.logsAfresh (past : List Turn) : Command → Bool
  | .logPull _ (.drawn .decisions _) _ _ _ => false
  | .logPull _ decision _ _ _ => (decisionOwner? decision past).isNone
  | _ => true

/-- Whether all turns that log a pull by hand do so under a decision of its own. -/
def logsAfresh : List Turn → Bool
  | [] => true
  | turn :: past => turn.command.logsAfresh past && logsAfresh past

variable {turns : List Turn} {turn : Turn} {arena after : Arena} {decision : DecisionId}
  {symbol : String}

theorem logsAfresh_cons_iff :
    logsAfresh (turn :: turns) = true ↔
      turn.command.logsAfresh turns = true ∧ logsAfresh turns = true := by
  rw [logsAfresh, Bool.and_eq_true]

theorem decisionOwner?_cons_of_none (hturn : turn.filed? = none) :
    decisionOwner? decision (turn :: turns) = decisionOwner? decision turns := by
  simp [decisionOwner?, hturn]

theorem decisionOwner?_cons_of_filed (hturn : turn.filed? = some (decision, symbol)) :
    decisionOwner? decision (turn :: turns) = some symbol := by
  simp [decisionOwner?, hturn]

theorem decisionOwner?_cons_of_ne {filed : DecisionId} (hturn : turn.filed? = some (filed, symbol))
    (hne : filed ≠ decision) :
    decisionOwner? decision (turn :: turns) = decisionOwner? decision turns := by
  simp [decisionOwner?, hturn, hne]

theorem Turn.filed?_of_not_files
    (hselect : ∀ contest context, turn.command ≠ .select contest context)
    (hlog : ∀ arm decision context halfLife time,
      turn.command ≠ .logPull arm decision context halfLife time) : turn.filed? = none := by
  unfold filed?
  split
  · next hcommand _ => exact absurd hcommand (hselect _ _)
  · next hcommand _ => exact absurd hcommand (hlog _ _ _ _ _)
  · rfl

theorem Command.logsAfresh_logPull {arm : ObjectId} {context : Context} {halfLife : Span}
    {time : Instant}
    (hafresh : (logPull arm decision context halfLife time).logsAfresh turns = true) :
    decisionOwner? decision turns = none ∧ ∀ serial, decision ≠ .drawn .decisions serial := by
  cases decision with
  | given name => exact ⟨Option.isNone_iff_eq_none.mp hafresh, nofun⟩
  | drawn supply serial =>
    cases supply with
    | decisions => cases hafresh
    | arms | positions => exact ⟨Option.isNone_iff_eq_none.mp hafresh, nofun⟩

/-- Whether the records of an arena name the symbols that the turns name. -/
structure Attributed (turns : List Turn) (arena : Arena) : Prop where
  filed : arena.registry.Filed
  owned : ∀ {decision : DecisionId} {symbol : String},
    arena.registry.decisions.find? decision = some symbol →
      decisionOwner? decision turns = some symbol
  drawn : ∀ {serial : Nat} {symbol : String},
    arena.registry.decisions.find? (.drawn .decisions serial) = some symbol →
      serial ≤ arena.decisionsDrawn
  /-- Every pull is one of an arm of the symbol in whose history it is. -/
  armed : ∀ symbol, ∀ pull ∈ arena.registry.historyOf symbol,
    ∃ arm, arena.registry.arms.find? pull.arm = some arm ∧ arm.contest.symbol = symbol

namespace Attributed

theorem empty : Attributed [] .empty :=
  ⟨Registry.filed_empty, nofun, nofun, fun _ _ hpull => absurd hpull List.not_mem_nil⟩

theorem find?_nextDecision (hattributed : Attributed turns arena) :
    arena.registry.decisions.find? arena.nextDecision = none := by
  cases hfound : arena.registry.decisions.find? arena.nextDecision with
  | none => rfl
  | some symbol => exact absurd (hattributed.drawn hfound) (Nat.not_succ_le_self _)

theorem find?_of_owner? (hattributed : Attributed turns arena)
    (hnobody : decisionOwner? decision turns = none) :
    arena.registry.decisions.find? decision = none := by
  cases hfound : arena.registry.decisions.find? decision with
  | none => rfl
  | some symbol => cases hnobody.symm.trans (hattributed.owned hfound)

/-- No decision is on record for two symbols, so that the pull of one is not that of another. -/
theorem eq_of_find? (hattributed : Attributed turns arena) {owner : String}
    (howner : decisionOwner? decision turns = some owner)
    (hfound : arena.registry.decisions.find? decision = some symbol) : symbol = owner :=
  Option.some.inj ((hattributed.owned hfound).symm.trans howner)

theorem symbol_of_extends {before after : Registry} (hextends : Registry.Extends before after)
    {id : ObjectId}
    (harmed : ∃ arm, before.arms.find? id = some arm ∧ arm.contest.symbol = symbol) :
    ∃ arm, after.arms.find? id = some arm ∧ arm.contest.symbol = symbol := by
  obtain ⟨arm, hfound, hsymbol⟩ := harmed
  obtain ⟨kept, hkept, hidentity⟩ := hextends.kept hfound
  exact ⟨kept, hkept,
    (congrArg Contest.symbol (Arm.contest_eq_of_identity hidentity)).trans hsymbol⟩

/-- Fewer decisions, and the pulls of the same arms, are as well attributed. -/
theorem keep (hattributed : Attributed turns arena) (hturn : turn.filed? = none)
    (hextends : Registry.Extends arena.registry after.registry)
    (hdrawn : after.decisionsDrawn = arena.decisionsDrawn) (hfiled : after.registry.Filed)
    (hdecisions : ∀ decision symbol, after.registry.decisions.find? decision = some symbol →
      arena.registry.decisions.find? decision = some symbol)
    (hpulls : ∀ symbol, ∀ pull ∈ after.registry.historyOf symbol,
      ∃ known ∈ arena.registry.historyOf symbol, known.arm = pull.arm) :
    Attributed (turn :: turns) after where
  filed := hfiled
  owned hfound := by
    rw [decisionOwner?_cons_of_none hturn]
    exact hattributed.owned (hdecisions _ _ hfound)
  drawn hfound := by
    rw [hdrawn]
    exact hattributed.drawn (hdecisions _ _ hfound)
  armed symbol pull hpull := by
    obtain ⟨known, hknown, harm⟩ := hpulls symbol pull hpull
    rw [← harm]
    exact symbol_of_extends hextends (hattributed.armed symbol known hknown)

/-- The same pulls and decisions are as well attributed. -/
theorem ofSamePulls (hattributed : Attributed turns arena) (hturn : turn.filed? = none)
    (hextends : Registry.Extends arena.registry after.registry)
    (hdrawn : after.decisionsDrawn = arena.decisionsDrawn)
    (hsame : Registry.SamePulls arena.registry after.registry) :
    Attributed (turn :: turns) after := by
  refine hattributed.keep hturn hextends hdrawn (hsame.filed hattributed.filed) ?_ ?_
  · intro decision symbol hfound
    rwa [hsame.decisions] at hfound
  · intro symbol pull hpull
    rw [hsame.historyOf] at hpull
    exact ⟨pull, hpull, rfl⟩

theorem prune (hattributed : Attributed turns arena) (hturn : turn.filed? = none)
    (hextends : Registry.Extends arena.registry after.registry) (cutoff : Instant)
    (hafter : after = { arena with registry := (arena.registry.prunePulls cutoff).1 }) :
    Attributed (turn :: turns) after := by
  subst hafter
  refine hattributed.keep hturn hextends rfl
    (Registry.filed_prunePulls hattributed.filed cutoff) ?_ ?_
  · intro decision symbol hfound
    exact ((Registry.find?_decisions_prunePulls cutoff _ decision symbol).mp hfound).1
  · intro symbol pull hpull
    obtain ⟨hold, -⟩ := (Registry.mem_historyOf_prunePulls cutoff _ symbol pull).mp hpull
    exact ⟨pull, hold, rfl⟩

/-- Resolving a decision puts its pull in the place of itself. -/
theorem applyReward (hattributed : Attributed turns arena) (hturn : turn.filed? = none)
    {registry : Registry} (hextends : Registry.Extends arena.registry registry)
    {outcome : Outcome} {halfLife : Span} {now : Instant} {answer : Except Refusal Pull}
    (happly : arena.registry.applyReward decision outcome halfLife now = .ok (registry, answer)) :
    Attributed (turn :: turns) { arena with registry } := by
  have hresolved : ∀ {symbol : String} {pull : Pull},
      arena.registry.locate? decision = some (symbol, pull) →
      registry.decisions = arena.registry.decisions →
      registry.histories = (arena.registry.withOutcome symbol
        { pull with outcome := some outcome }).histories →
      Attributed (turn :: turns) { arena with registry } := by
    intro symbol pull hlocated hdecisions hhistories
    obtain ⟨hpull, -⟩ := (hattributed.filed.locate?_eq_some_iff decision).mp hlocated
    let resolved : Pull := { pull with outcome := some outcome }
    have hsame : Registry.SamePulls (arena.registry.withOutcome symbol resolved) registry :=
      ⟨hhistories, hdecisions⟩
    refine hattributed.keep hturn hextends rfl
      (hsame.filed (Registry.filed_withOutcome hattributed.filed hpull resolved rfl)) ?_ ?_
    · intro decision symbol hfound
      exact hdecisions ▸ hfound
    · intro other found hfound
      have hfound : found ∈ (arena.registry.withOutcome symbol resolved).historyOf other := by
        rw [← hsame.historyOf]
        exact hfound
      obtain ⟨rfl, rfl⟩ | ⟨hold, -⟩ := (Registry.mem_historyOf_withOutcome hattributed.filed hpull
        resolved rfl other found).mp hfound
      · exact ⟨pull, hpull, rfl⟩
      · exact ⟨found, hold, rfl⟩
  obtain ⟨-, rfl, -⟩ | ⟨symbol, pull, hlocated, ⟨-, rfl, -⟩ | ⟨-, -, rfl, -⟩ |
    ⟨-, arm, stats, -, -, rfl, -⟩⟩ := Registry.applyReward_cases happly
  · exact hattributed.ofSamePulls hturn hextends rfl ⟨rfl, rfl⟩
  · exact hattributed.ofSamePulls hturn hextends rfl ⟨rfl, rfl⟩
  · exact hresolved hlocated rfl rfl
  · exact hresolved hlocated rfl rfl

/-- A pull of a new decision is put on record for the symbol of its arm. -/
theorem add (hattributed : Attributed turns arena) {arm : Arm} {logged : Pull}
    (hturn : turn.filed? = some (logged.decision, logged.contest.symbol))
    (hfound : arena.registry.arms.find? logged.arm = some arm)
    (hcontest : arm.contest = logged.contest)
    (hfresh : arena.registry.decisions.find? logged.decision = none)
    (hserial : ∀ serial, logged.decision = .drawn .decisions serial →
      serial ≤ after.decisionsDrawn)
    (hextends : Registry.Extends arena.registry after.registry)
    (hdrawn : arena.decisionsDrawn ≤ after.decisionsDrawn)
    (hpulls : Registry.SamePulls (arena.registry.withPull arm logged) after.registry) :
    Attributed (turn :: turns) after := by
  have hdecisions : ∀ decision symbol, after.registry.decisions.find? decision = some symbol →
      decision = logged.decision ∧ symbol = logged.contest.symbol ∨
        decision ≠ logged.decision ∧
          arena.registry.decisions.find? decision = some symbol := by
    intro decision symbol hnow
    rw [hpulls.decisions, Registry.withPull, Table.find?_insert] at hnow
    split at hnow
    · next hsame => exact .inl ⟨hsame, (Option.some.inj hnow).symm⟩
    · next hne => exact .inr ⟨hne, hnow⟩
  refine ⟨?_, ?_, ?_, ?_⟩
  · refine hpulls.filed (Registry.filed_withPull hattributed.filed arm logged ?_)
    intro symbol pull hpull hdecision
    cases hfresh.symm.trans (hdecision ▸ hattributed.filed.filed hpull)
  · intro decision symbol hnow
    obtain ⟨rfl, rfl⟩ | ⟨hne, hbefore⟩ := hdecisions decision symbol hnow
    · exact decisionOwner?_cons_of_filed hturn
    · rw [decisionOwner?_cons_of_ne hturn (Ne.symm hne)]
      exact hattributed.owned hbefore
  · intro serial symbol hnow
    obtain ⟨hdecision, -⟩ | ⟨-, hbefore⟩ := hdecisions _ symbol hnow
    · exact hserial serial hdecision.symm
    · exact Nat.le_trans (hattributed.drawn hbefore) hdrawn
  · intro symbol pull hpull
    rw [hpulls.historyOf] at hpull
    apply symbol_of_extends hextends
    obtain hold | ⟨rfl, rfl⟩ :=
      (Registry.mem_historyOf_withPull arena.registry arm logged symbol pull).mp hpull
    · exact hattributed.armed symbol pull hold
    · exact ⟨arm, hfound, congrArg Contest.symbol hcontest⟩

/-- A step that restores no arm, and logs a pull by hand at most afresh, keeps the records
attributed. -/
theorem step {governor next : Governor} {command : Command} {answer : Except Refusal Reply}
    (hattributed : Attributed turns governor.arena) (hsound : governor.registry.Sound)
    (hcommand : ∀ arm, command ≠ .restoreArm arm)
    (hafresh : command.logsAfresh turns = true)
    (hstep : ArenaStep governor command answer next.arena) :
    Attributed (⟨governor, command, answer, next⟩ :: turns) next.arena := by
  have hextends : Registry.Extends governor.registry next.registry :=
    hstep.roster.extended hsound.grounded hcommand
  obtain ⟨settings, seeding, clock, arena, costs, shadow, monitor, gate, notifier⟩ := next
  dsimp only at hstep
  cases hstep with
  | spared hspared =>
    refine hattributed.ofSamePulls (Turn.filed?_of_not_files ?_ ?_) hextends rfl ⟨rfl, rfl⟩
    · rintro contest context rfl
      cases hspared
    · rintro arm decision context halfLife time rfl
      cases hspared
  | ensureArms contest offers =>
    exact hattributed.ofSamePulls rfl hextends rfl
      (Registry.SameRecords.ensureArms contest offers governor.clock governor.registry).toSamePulls
  | restoreArm arm => exact absurd rfl (hcommand arm)
  | select hselect =>
    obtain ⟨⟨refusal, rfl⟩, rfl⟩ | ⟨generator, arm, -, ⟨hfound, rfl⟩, rfl, rfl⟩ :=
      Arena.select_cases hsound hselect
    · exact hattributed.ofSamePulls rfl hextends rfl ⟨rfl, rfl⟩
    · refine hattributed.add rfl hfound rfl hattributed.find?_nextDecision ?_ hextends
        (Nat.le_succ _) ⟨rfl, rfl⟩
      rintro serial hserial
      exact Nat.le_of_eq (Identifier.drawn.inj hserial).2.symm
  | @report _ _ _ _ _ hreport hrecord =>
    have hturn : ∀ answer next, (⟨governor, command, answer, next⟩ : Turn).filed? = none := by
      intro answer next
      cases command with
      | recordOutcome | recordTrade => rfl
      | _ => cases hreport
    obtain ⟨-, rfl, -⟩ | ⟨usable, registry, result, -, happly, rfl, -⟩ :=
      Arena.recordOutcome_cases hrecord
    · exact hattributed.ofSamePulls (hturn _ _) hextends rfl ⟨rfl, rfl⟩
    · exact hattributed.applyReward (hturn _ _) hextends happly
  | setStatus id status =>
    exact hattributed.ofSamePulls rfl hextends rfl
      (Registry.SameRecords.setStatus id status governor.clock governor.registry).toSamePulls
  | setPresetStatus preset status =>
    exact hattributed.ofSamePulls rfl hextends rfl
      (Registry.SameRecords.setPresetStatus preset status governor.clock
        governor.registry).toSamePulls
  | resetArms contest =>
    exact hattributed.ofSamePulls rfl hextends rfl
      (Registry.SameRecords.resetStats contest governor.clock governor.registry).toSamePulls
  | @logPull id decision context halfLife time registry result hlog =>
    obtain ⟨hnobody, hundrawn⟩ := Command.logsAfresh_logPull hafresh
    obtain ⟨-, rfl, rfl⟩ | ⟨arm, hfound, -, rfl, rfl⟩ := Registry.logPull_spec hsound hlog
    · exact hattributed.ofSamePulls rfl hextends rfl ⟨rfl, rfl⟩
    · obtain rfl := hsound.id_eq hfound
      exact hattributed.add rfl hfound rfl (hattributed.find?_of_owner? hnobody)
        (fun serial hserial => absurd hserial (hundrawn serial)) hextends (Nat.le_refl _)
        ⟨rfl, rfl⟩
  | applyReward happly => exact hattributed.applyReward rfl hextends happly
  | chargeLedger hcharge =>
    obtain ⟨rfl, -⟩ := Registry.chargeLedger_eq_ok_iff.mp hcharge
    exact hattributed.ofSamePulls rfl hextends rfl ⟨rfl, rfl⟩
  | seedLedger => exact hattributed.ofSamePulls rfl hextends rfl ⟨rfl, rfl⟩
  | @prune _ cutoff _ hcutoff =>
    refine hattributed.prune ?_ hextends cutoff rfl
    cases command with
    | prunePulls | pruneExpired => rfl
    | _ => cases hcutoff

end Attributed

namespace History

variable {start governor : Governor}

/-- After every history that restores no arm the registry is sound. -/
theorem sound_of_not_restores (hhistory : History start turns governor)
    (hempty : start.arena = .empty)
    (hrestores : ∀ turn ∈ turns, ∀ arm, turn.command ≠ .restoreArm arm) :
    governor.registry.Sound :=
  hhistory.sound hempty fun turn hturn arm hrestore => absurd hrestore (hrestores turn hturn arm)

/-- After every history that restores no arm, and logs pulls by hand at most afresh, the records
are attributed. -/
theorem attributed (hhistory : History start turns governor) (hempty : start.arena = .empty)
    (hrestores : ∀ turn ∈ turns, ∀ arm, turn.command ≠ .restoreArm arm)
    (hafresh : logsAfresh turns = true) : Attributed turns governor.arena := by
  induction hhistory with
  | start =>
    rw [hempty]
    exact .empty
  | turn past step ih =>
    obtain ⟨hcommand, hpast⟩ := List.forall_mem_cons.mp hrestores
    obtain ⟨hnow, hbefore⟩ := logsAfresh_cons_iff.mp hafresh
    exact (ih hpast hbefore).step (past.sound_of_not_restores hempty hpast) hcommand hnow
      (Governor.arenaStep_of_step step).1

end History

end ExposureControl
