import ExposureControl.Proofs.ArenaSelect
import ExposureControl.Proofs.ArenaStep
import ExposureControl.Proofs.History

/-!
# Soundness along histories

Every command keeps the index of arms sound, as long as restored arms stay in their contest.  So
the registry is sound after every history of such commands.
-/

namespace ExposureControl

/-- What the outcome of a decision does to the arena: it is dropped where its reward is not
finite, and otherwise resolves the decision. -/
theorem Arena.recordOutcome_cases {settings : Settings.Selection} {now : Instant}
    {decision : DecisionId} {outcome : Outcome} {arena next : Arena}
    {answer : Except Refusal (Option Pull)}
    (hrecord : arena.recordOutcome settings now decision outcome = .ok (next, answer)) :
    (outcome.usable? = none ∧ next = arena ∧ answer = .ok none) ∨
      ∃ usable registry result, outcome.usable? = some usable ∧
        arena.registry.applyReward decision usable settings.decay.halfLife now =
          .ok (registry, result) ∧
        next = { arena with registry } ∧ answer = result.map some := by
  unfold recordOutcome at hrecord
  cases husable : outcome.usable? with
  | none =>
    simp only [husable, Except.ok.injEq, Prod.mk.injEq] at hrecord
    exact .inl ⟨rfl, hrecord.1.symm, hrecord.2.symm⟩
  | some usable =>
    simp only [husable, tryRegistry, Fault.bind_eq_ok_iff, Fault.pure_eq_ok_iff, Prod.mk.injEq,
      Prod.exists] at hrecord
    obtain ⟨_, _, ⟨registry, result, happly, rfl, rfl⟩, rfl, rfl⟩ := hrecord
    exact .inr ⟨usable, registry, result, rfl, happly, rfl, rfl⟩

/-- A turn that selects something was answered by a selection of the arena. -/
theorem ArenaStep.select_of_selected {governor next : Governor} {command : Command}
    {answer : Except Refusal Reply} (hstep : ArenaStep governor command answer next.arena)
    {contest : Contest} {selection : Selection}
    (hselected :
      (⟨governor, command, answer, next⟩ : Turn).selected? = some (contest, selection)) :
    ∃ context, governor.arena.select governor.settings.selection governor.seeding governor.clock
      contest context = .ok (next.arena, .ok selection) := by
  cases command with
  | select contest context =>
    generalize next.arena = arena at hstep ⊢
    cases hstep with
    | @select _ _ _ result hselect =>
      cases result with
      | error refusal => cases hselected
      | ok selection =>
        cases hselected
        exact ⟨context, hselect⟩
    | spared himpossible | report himpossible | prune himpossible => cases himpossible
  | _ => cases hselected

/-- Committing to a recorded arm changes no arm's identity. -/
theorem Arena.sameArms_committed {arena : Arena} {arm : Arm}
    (hfound : arena.registry.arms.find? arm.id = some arm) (settings : Settings.Selection)
    (now : Instant) (symbol : String) (context : Context) :
    Registry.SameArms Arm.identity arena.registry
      (arena.committed settings now symbol arm context).registry := by
  have hlogged := Registry.sameArms_withPull hfound
    (Arm.identity_pulled settings.decay.halfLife now arm) (arena.nextPull now arm context)
  exact ⟨hlogged.idsOf, hlogged.armsDrawn, hlogged.arms⟩

/-- Whether a turn, if it puts an arm on record, leaves it in the contest in which it is known. -/
def Turn.RestoresFaithfully (turn : Turn) : Prop :=
  ∀ arm, turn.command = .restoreArm arm → turn.before.registry.Admits arm

/-- One step keeps a sound registry sound. -/
theorem ArenaStep.sound {governor : Governor} {command : Command}
    {answer : Except Refusal Reply} {arena : Arena}
    (hstep : ArenaStep governor command answer arena) (hsound : governor.registry.Sound)
    (hrestores : ∀ arm, command = .restoreArm arm → governor.registry.Admits arm) :
    arena.registry.Sound := by
  cases hstep with
  | spared => exact hsound
  | ensureArms contest offers =>
    exact (Registry.ensureArms_spec hsound contest offers governor.clock).1
  | restoreArm arm => exact Registry.sound_restoreArm hsound (hrestores arm rfl)
  | select hselect =>
    obtain ⟨-, rfl⟩ | ⟨generator, arm, -, ⟨hfound, -⟩, rfl, -⟩ :=
      Arena.select_cases hsound hselect
    · exact hsound
    · exact (Arena.sameArms_committed
        hfound _ _ _ _).sound hsound
  | report _ hrecord =>
    obtain ⟨-, rfl, -⟩ | ⟨usable, registry, result, -, happly, rfl, -⟩ :=
      Arena.recordOutcome_cases hrecord
    · exact hsound
    · exact ((Registry.sameArms_applyReward happly).coarsen Prod.fst).sound hsound
  | setStatus id status =>
    exact Registry.SameArms.sound
      (.setStatus (fun _ _ _ => rfl) id status governor.clock governor.registry) hsound
  | setPresetStatus preset status =>
    exact Registry.SameArms.sound
      (.setPresetStatus (fun _ _ _ => rfl) preset status governor.clock governor.registry) hsound
  | resetArms contest =>
    exact (Registry.sameArms_resetStats contest governor.clock governor.registry).sound hsound
  | logPull hlog => exact ((Registry.sameArms_logPull hlog).coarsen Prod.fst).sound hsound
  | applyReward happly =>
    exact ((Registry.sameArms_applyReward happly).coarsen Prod.fst).sound hsound
  | chargeLedger hcharge =>
    obtain ⟨rfl, -⟩ := Registry.chargeLedger_eq_ok_iff.mp hcharge
    exact ⟨hsound.id_eq, hsound.mem_idsOf_iff, hsound.nodup_idsOf, hsound.drawn_le⟩
  | seedLedger symbol ledger =>
    exact ⟨hsound.id_eq, hsound.mem_idsOf_iff, hsound.nodup_idsOf, hsound.drawn_le⟩
  | prune =>
    exact ⟨hsound.id_eq, hsound.mem_idsOf_iff, hsound.nodup_idsOf, hsound.drawn_le⟩

namespace Governor

variable {settings : Settings} {entropy : Seeding} {notifier : Notifier} {clock : Instant}
  {start governor : Governor} {turns : List Turn}

theorem create_eq_ok (hcreate : create settings entropy notifier clock = .ok start) :
    start.settings = settings ∧ start.clock = clock ∧ start.arena = .empty := by
  simp only [create, Fault.bind_eq_ok_iff, Fault.pure_eq_ok_iff] at hcreate
  obtain ⟨_, -, _, -, rfl⟩ := hcreate
  exact ⟨rfl, rfl, rfl⟩

end Governor

namespace History

variable {start governor : Governor} {turns : List Turn}

theorem settings_eq (hhistory : History start turns governor) :
    governor.settings = start.settings := by
  induction hhistory with
  | start => rfl
  | turn past step ih => exact (Governor.arenaStep_of_step step).2.1.trans ih

/-- After every history that restores arms faithfully the registry is sound. -/
theorem sound (hhistory : History start turns governor) (hempty : start.arena = .empty)
    (hrestores : ∀ turn ∈ turns, turn.RestoresFaithfully) : governor.registry.Sound := by
  induction hhistory with
  | start =>
    rw [Governor.registry, hempty]
    exact Registry.sound_empty
  | turn past step ih =>
    obtain ⟨hnow, hpast⟩ := List.forall_mem_cons.mp hrestores
    exact (Governor.arenaStep_of_step step).1.sound (ih hpast) hnow

end History

end ExposureControl
