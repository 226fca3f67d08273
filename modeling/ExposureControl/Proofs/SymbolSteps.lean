import ExposureControl.Proofs.Attribution
import ExposureControl.Proofs.SymbolFrame

/-!
# Commands of one symbol

A command is addressed to a symbol, or to none.  If it is addressed to another symbol, it leaves
the mirror of a symbol alone.  If not, it does the same on both sides of the mirror, once what it
names is renamed, and answers the same unless it answers for the store as a whole.
-/

namespace ExposureControl

namespace Command

variable {command : Command} {symbol other : String} {past : List Turn} {governor : Governor}

/-- The symbol to which a command is addressed: that of its contest, of the arm on record, or of
the decision that was drawn before. -/
def addressee? (past : List Turn) (governor : Governor) : Command → Option String
  | .ensureArms contest _ | .select contest _ | .resetArms contest => some contest.symbol
  | .recordOutcome decision _ | .recordTrade decision _ _ _ | .applyReward decision _ _ _ =>
    decisionOwner? decision past
  | .setStatus id _ | .logPull id _ _ _ _ =>
    (governor.registry.arms.find? id).map fun arm => arm.contest.symbol
  | .chargeLedger symbol _ _ | .seedLedger symbol _ => some symbol
  | _ => none

/-- Whether a command answers with a count over all symbols. -/
def storeWide : Command → Bool
  | .setPresetStatus .. | .prunePulls _ | .pruneExpired _ => true
  | _ => false

theorem addressee?_of_report {settings : Settings} {decision : DecisionId} {outcome : Outcome}
    (hreport : command.report? settings = some (decision, outcome)) :
    command.addressee? past governor = decisionOwner? decision past := by
  cases command with
  | recordOutcome =>
    obtain ⟨rfl, -⟩ := Prod.mk.inj (Option.some.inj hreport)
    rfl
  | recordTrade =>
    obtain ⟨_, -, hpair⟩ := Option.map_eq_some_iff.mp hreport
    obtain ⟨rfl, -⟩ := Prod.mk.inj hpair
    rfl
  | _ => cases hreport

theorem sparesArena_of_addressee? (haddressee : command.addressee? past governor = some other) :
    command.sparesArena = false := by
  cases command with
  | ensureArms | select | resetArms | recordOutcome | recordTrade | applyReward | setStatus
  | logPull | chargeLedger | seedLedger => rfl
  | _ => cases haddressee

end Command

namespace Renaming

variable {names : Renaming} {command : Command}

theorem ofCommand_of_spared (hspared : command.sparesArena = true) :
    names.ofCommand command = command := by
  cases command with
  | restoreArm | recordOutcome | recordTrade | setStatus | logPull | applyReward => cases hspared
  | _ => rfl

theorem report?_ofCommand (names : Renaming) (command : Command) (settings : Settings) :
    (names.ofCommand command).report? settings =
      (command.report? settings).map fun report => (names.ofDecision report.1, report.2) := by
  cases command with
  | recordTrade decision profit slippage fees =>
    simp only [ofCommand, Command.report?, Option.map_map, Function.comp_def]
  | _ => rfl

theorem ofResult_of_spared {governor next : Governor} {answer : Except Refusal Reply}
    (hspared : command.sparesArena = true)
    (hstep : governor.step command = .ok (next, answer)) :
    names.ofResult names.ofReply answer = answer := by
  cases command with
  | advance _ | fill _ _ _ _ | priceTick _ _ =>
    simp only [Governor.step, Governor.answering, Fault.bind_eq_ok_iff, Except.ok.injEq,
      Prod.mk.injEq] at hstep
    obtain ⟨_, -, -, rfl⟩ := hstep
    rfl
  | setClock _ | submit _ | registerShadow _ | restorePosition _ | reportLive _ _
  | reportShadow _ _ | bookLive _ _ | recordTradeResult _ _ | resetMonitor | setKillSwitch _
  | setMode _ | clearAlerts =>
    simp only [Governor.step, Governor.answering, Except.ok.injEq, Prod.mk.injEq] at hstep
    obtain ⟨-, rfl⟩ := hstep
    rfl
  | _ => cases hspared

end Renaming

namespace Governor

variable {shares : Shares} {symbol : String} {governor next : Governor} {reduced arena : Arena}
  {command : Command} {answer : Except Refusal Reply} {past : List Turn}

/-- Whether a command, renamed, does with an arena on the other side of a mirror what it does on
this side. -/
def Echoes (shares : Shares) (symbol : String) (reduced : Arena) (governor : Governor)
    (command : Command) (next : Governor) (answer : Except Refusal Reply) : Prop :=
  ∃ reducedNext reply,
    ({ governor with arena := reduced } : Governor).step (shares.names.ofCommand command) =
      .ok ({ next with arena := reducedNext }, reply) ∧
    next.arena.Mirrors shares symbol reducedNext ∧
    (command.storeWide = false → reply = shares.names.ofResult shares.names.ofReply answer)

/-! ## What concerns the symbol -/

theorem echoes_of_spared (hmirrors : governor.arena.Mirrors shares symbol reduced)
    (hspared : command.sparesArena = true) (hstep : governor.step command = .ok (next, answer)) :
    Echoes shares symbol reduced governor command next answer := by
  refine ⟨reduced, answer, ?_, ?_, fun _ => (Renaming.ofResult_of_spared hspared hstep).symm⟩
  · rw [Renaming.ofCommand_of_spared hspared]
    exact step_withArena hspared hstep reduced
  · rw [(sameArena_of_step hspared hstep).arena]
    exact hmirrors

theorem echoes_of_pruneExpired (hmirrors : governor.arena.Mirrors shares symbol reduced)
    (hfiled : governor.registry.Filed) {now : Instant}
    (hstep : governor.step (.pruneExpired now) = .ok (next, answer)) :
    Echoes shares symbol reduced governor (.pruneExpired now) next answer := by
  simp only [step, answering, Fault.bind_eq_ok_iff, Except.ok.injEq, Prod.mk.injEq,
    Prod.exists] at hstep
  obtain ⟨_, removals, hprune, rfl, -⟩ := hstep
  obtain ⟨cutoff, -, harena, hreduced⟩ := pruneExpired_withArena hprune reduced
  refine ⟨{ reduced with registry := (reduced.registry.prunePulls cutoff).1 },
    .ok (.removals { removals with pulls := (reduced.registry.prunePulls cutoff).2 }), ?_, ?_,
    fun himpossible => Bool.noConfusion himpossible⟩
  · simp only [Renaming.ofCommand, step, answering, hreduced]
    rfl
  · rw [harena]
    exact ⟨hmirrors.registry.prunePulls hfiled cutoff, hmirrors.generator,
      hmirrors.decisionsDrawn⟩

/-- A report for a decision that no other symbol has. -/
theorem echoes_of_report (hmirrors : governor.arena.Mirrors shares symbol reduced)
    {decision : DecisionId} {outcome : Outcome} {result : Except Refusal (Option Pull)}
    (hfiled : ∀ filed, governor.registry.decisions.find? decision = some filed → filed = symbol)
    (harmed : ∀ pull ∈ governor.registry.historyOf symbol,
      ∃ arm, governor.registry.arms.find? pull.arm = some arm ∧ arm.contest.symbol = symbol)
    (hreport : command.report? governor.settings = some (decision, outcome))
    (hrecord : governor.arena.recordOutcome governor.settings.selection governor.clock decision
      outcome = .ok (arena, result)) :
    Echoes shares symbol reduced governor command { governor with arena }
      (result.map .pull) := by
  obtain ⟨reducedNext, hreduced, hnext⟩ := hmirrors.recordOutcome hfiled harmed hrecord
  refine ⟨reducedNext,
    (shares.names.ofResult (Option.map shares.names.ofPull) result).map .pull, ?_, hnext,
    fun _ => shares.names.ofResult_map (fun _ => by rfl) result⟩
  · apply step_of_report
    · rw [Renaming.report?_ofCommand, show command.report? _ = _ from hreport]
      rfl
    · exact recordOutcome_eq_ok_iff.mpr ⟨reducedNext, hreduced, rfl⟩

/-- A selection for a contest of the symbol. -/
theorem echoes_of_select (hmirrors : governor.arena.Mirrors shares symbol reduced)
    (hsound : governor.registry.Sound) (hsound' : reduced.registry.Sound) {contest : Contest}
    {context : Context} (hown : contest.symbol = symbol)
    (hcovers : shares.Covers true governor.arena arena) {result : Except Refusal Selection}
    (hselect : governor.arena.select governor.settings.selection governor.seeding governor.clock
      contest context = .ok (arena, result)) :
    Echoes shares symbol reduced governor (.select contest context) { governor with arena }
      (result.map .selection) := by
  obtain ⟨reducedNext, hreduced, hnext⟩ := hmirrors.select hsound hsound' hown hcovers hselect
  refine ⟨reducedNext, (shares.names.ofResult shares.names.ofSelection result).map .selection,
    ?_, hnext, fun _ => shares.names.ofResult_map (fun _ => by rfl) result⟩
  simp only [Renaming.ofCommand, step, select, tryArena, hreduced]
  rfl

theorem echoes_of_registry (hmirrors : governor.arena.Mirrors shares symbol reduced)
    {registry registry' : Registry} {reply : Except Refusal Reply}
    (hnext : registry.Mirrors shares symbol registry')
    (hstep : ({ governor with arena := reduced } : Governor).step (shares.names.ofCommand command) =
      .ok ({ governor with arena := { reduced with registry := registry' } }, reply))
    (hanswer : command.storeWide = false →
      reply = shares.names.ofResult shares.names.ofReply answer) :
    Echoes shares symbol reduced governor command
      { governor with arena := { governor.arena with registry } } answer :=
  ⟨_, reply, hstep, ⟨hnext, hmirrors.generator, hmirrors.decisionsDrawn⟩, hanswer⟩

/-- An arm to which a command may be addressed is the symbol's. -/
theorem symbol_of_addressee {id : ObjectId}
    (hconcerns : ∀ owner,
      (governor.registry.arms.find? id).map (fun arm => arm.contest.symbol) = some owner →
        owner = symbol) {arm : Arm} (hfound : governor.registry.arms.find? id = some arm) :
    arm.contest.symbol = symbol :=
  hconcerns _ (congrArg (Option.map fun arm : Arm => arm.contest.symbol) hfound)

/-- A change of the arena by a command that is addressed to no other symbol. -/
theorem echoes_of_arenaStep (hmirrors : governor.arena.Mirrors shares symbol reduced)
    (hsound : governor.registry.Sound) (hsound' : reduced.registry.Sound)
    (hattributed : Attributed past governor.arena) (hcommand : ∀ arm, command ≠ .restoreArm arm)
    (hconcerns : ∀ owner, command.addressee? past governor = some owner → owner = symbol)
    (hcovers : shares.Covers (command.addressee? past governor = some symbol) governor.arena arena)
    (hspared : command.sparesArena = false) (hhousekeeping : ∀ now, command ≠ .pruneExpired now)
    (hstep : ArenaStep governor command answer arena) :
    Echoes shares symbol reduced governor command { governor with arena } answer := by
  have hserved (haddressee : command.addressee? past governor = some symbol) :
      decide (command.addressee? past governor = some symbol) = true := decide_eq_true haddressee
  cases hstep with
  | spared himpossible => cases hspared.symm.trans himpossible
  | restoreArm arm => exact absurd rfl (hcommand arm)
  | ensureArms contest offers =>
    have hown := hconcerns contest.symbol rfl
    rw [hserved (congrArg some hown)] at hcovers
    obtain ⟨hnext, hanswer⟩ := hmirrors.registry.ensureArms hsound hown offers governor.clock
      hcovers.arms
    exact echoes_of_registry hmirrors hnext rfl fun _ =>
      congrArg (fun arms => Except.ok (Reply.arms arms)) hanswer
  | select hselect =>
    have hown := hconcerns _ rfl
    rw [hserved (congrArg some hown)] at hcovers
    exact echoes_of_select hmirrors hsound hsound' hown hcovers hselect
  | report hreport hrecord =>
    refine echoes_of_report hmirrors (fun filed hfiled => hconcerns filed ?_)
      (hattributed.armed symbol) hreport hrecord
    rw [Command.addressee?_of_report hreport]
    exact hattributed.owned hfiled
  | setStatus id status =>
    obtain ⟨hnext, hanswer⟩ :=
      hmirrors.registry.setStatus (fun _ => symbol_of_addressee hconcerns) status governor.clock
    exact echoes_of_registry hmirrors hnext rfl fun _ =>
      (congrArg (Except.map Reply.arm) hanswer).trans
        (shares.names.ofResult_map (fun _ => by rfl) _)
  | setPresetStatus preset status =>
    exact echoes_of_registry hmirrors
      (hmirrors.registry.setPresetStatus preset status governor.clock) rfl
      fun himpossible => Bool.noConfusion himpossible
  | resetArms contest =>
    obtain ⟨hnext, hanswer⟩ :=
      hmirrors.registry.resetStats (hconcerns contest.symbol rfl) governor.clock
    exact echoes_of_registry hmirrors hnext rfl fun _ =>
      congrArg (fun count => Except.ok (Reply.count count)) hanswer
  | @logPull id decision context halfLife time registry result hlog =>
    have hown : ∀ arm, governor.registry.arms.find? id = some arm → arm.contest.symbol = symbol :=
      fun _ => symbol_of_addressee hconcerns
    have hlogged : governor.registry.pullsLogged < registry.pullsLogged →
        shares.pulls.own (governor.registry.pullsLogged + 1) = true := by
      intro hmore
      obtain ⟨-, rfl, -⟩ | ⟨arm, hfound, -⟩ := Registry.logPull_spec hsound hlog
      · exact absurd hmore (Nat.lt_irrefl _)
      · refine (hcovers.pulls _ (Nat.lt_succ_self _) hmore).trans (decide_eq_true ?_)
        exact (congrArg (Option.map fun arm : Arm => arm.contest.symbol) hfound).trans
          (congrArg some (hown arm hfound))
    obtain ⟨reducedNext, hreduced, hnext⟩ :=
      hmirrors.registry.logPull hsound hsound' hown hlogged hlog
    have hstep : ({ governor with arena := reduced } : Governor).step
        (shares.names.ofCommand (.logPull id decision context halfLife time)) =
          .ok ({ governor with arena := { reduced with registry := reducedNext } },
            (shares.names.ofResult shares.names.ofPull result).map fun pull =>
              .pull (some pull)) := by
      simp only [Renaming.ofCommand, step, tryRegistry, Arena.tryRegistry, tryArena, hreduced]
      rfl
    exact echoes_of_registry hmirrors hnext hstep fun _ =>
      shares.names.ofResult_map (fun _ => by rfl) result
  | @applyReward decision outcome halfLife time _ result happly =>
    obtain ⟨reducedNext, hreduced, hnext⟩ := hmirrors.registry.applyReward
      (fun filed hfiled => hconcerns filed (hattributed.owned hfiled))
      (hattributed.armed symbol) happly
    have hstep : ({ governor with arena := reduced } : Governor).step
        (shares.names.ofCommand (.applyReward decision outcome halfLife time)) =
          .ok ({ governor with arena := { reduced with registry := reducedNext } },
            (shares.names.ofResult shares.names.ofPull result).map fun pull =>
              .pull (some pull)) := by
      simp only [Renaming.ofCommand, step, tryRegistry, Arena.tryRegistry, tryArena, hreduced]
      rfl
    exact echoes_of_registry hmirrors hnext hstep fun _ =>
      shares.names.ofResult_map (fun _ => by rfl) result
  | chargeLedger hcharge =>
    obtain rfl := hconcerns _ rfl
    obtain ⟨reducedNext, hreduced, hnext⟩ := hmirrors.registry.chargeLedger hcharge
    refine echoes_of_registry hmirrors hnext ?_ fun _ => rfl
    simp only [Renaming.ofCommand, step, tryRegistry, Arena.tryRegistry, tryArena, hreduced]
    rfl
  | seedLedger seeded ledger =>
    obtain rfl := hconcerns seeded rfl
    exact echoes_of_registry hmirrors (hmirrors.registry.seedLedger ledger) rfl fun _ => rfl
  | prune hcutoff =>
    cases command with
    | prunePulls =>
      obtain rfl := Option.some.inj hcutoff
      exact echoes_of_registry hmirrors (hmirrors.registry.prunePulls hattributed.filed _) rfl
        fun himpossible => Bool.noConfusion himpossible
    | pruneExpired now => exact absurd rfl (hhousekeeping now)
    | _ => cases hcutoff

/-- A command that is addressed to no other symbol does the same on both sides of the mirror. -/
theorem echoes_of_step (hmirrors : governor.arena.Mirrors shares symbol reduced)
    (hsound : governor.registry.Sound) (hsound' : reduced.registry.Sound)
    (hattributed : Attributed past governor.arena) (hcommand : ∀ arm, command ≠ .restoreArm arm)
    (hconcerns : ∀ owner, command.addressee? past governor = some owner → owner = symbol)
    (hcovers : shares.Covers (command.addressee? past governor = some symbol) governor.arena
      next.arena)
    (hstep : governor.step command = .ok (next, answer)) :
    Echoes shares symbol reduced governor command next answer := by
  by_cases hspared : command.sparesArena = true
  · exact echoes_of_spared hmirrors hspared hstep
  rw [Bool.not_eq_true] at hspared
  by_cases hhousekeeping : ∃ now, command = .pruneExpired now
  · obtain ⟨now, rfl⟩ := hhousekeeping
    exact echoes_of_pruneExpired hmirrors hattributed.filed hstep
  rw [not_exists] at hhousekeeping
  have hnext := eq_withArena_of_step hspared hhousekeeping hstep
  rw [hnext]
  exact echoes_of_arenaStep hmirrors hsound hsound' hattributed hcommand hconcerns hcovers hspared
    hhousekeeping (arenaStep_of_step hstep).1

/-! ## What is addressed to others -/

/-- A command that is addressed to another symbol leaves the symbol alone. -/
theorem sameOf_of_arenaStep (hsound : governor.registry.Sound)
    (hattributed : Attributed past governor.arena) (hcommand : ∀ arm, command ≠ .restoreArm arm)
    (hafresh : command.logsAfresh past = true) {other : String}
    (haddressee : command.addressee? past governor = some other) (hother : other ≠ symbol)
    (hstep : ArenaStep governor command answer arena) :
    governor.arena.SameOf symbol arena := by
  have hunfiled {decision : DecisionId} (howner : decisionOwner? decision past = some other) :
      governor.registry.decisions.find? decision ≠ some symbol :=
    fun hfiled => hother (hattributed.eq_of_find? howner hfiled).symm
  cases hstep with
  | spared hspared =>
    cases (Command.sparesArena_of_addressee? haddressee).symm.trans hspared
  | restoreArm arm => exact absurd rfl (hcommand arm)
  | ensureArms contest offers =>
    obtain rfl := Option.some.inj haddressee
    exact ⟨.ensureArms hsound hother offers governor.clock, rfl⟩
  | select hselect =>
    obtain rfl := Option.some.inj haddressee
    exact .select hsound hother (hattributed.find?_nextDecision ▸ nofun) hselect
  | report hreport hrecord =>
    rw [Command.addressee?_of_report hreport] at haddressee
    obtain ⟨-, rfl, -⟩ | ⟨usable, registry, result, -, happly, rfl, -⟩ :=
      Arena.recordOutcome_cases hrecord
    · exact ⟨.refl symbol _, rfl⟩
    · exact ⟨.applyReward (hunfiled haddressee) hattributed.armed happly, rfl⟩
  | setStatus id status =>
    obtain ⟨arm, hfound, rfl⟩ := Option.map_eq_some_iff.mp haddressee
    exact ⟨.setStatus hfound hother status governor.clock, rfl⟩
  | resetArms contest =>
    obtain rfl := Option.some.inj haddressee
    exact ⟨.resetStats hsound hother governor.clock, rfl⟩
  | logPull hlog =>
    obtain ⟨arm, hfound, rfl⟩ := Option.map_eq_some_iff.mp haddressee
    obtain ⟨hnobody, -⟩ := Command.logsAfresh_logPull hafresh
    exact ⟨.logPull hsound hfound hother (hattributed.find?_of_owner? hnobody ▸ nofun) hlog, rfl⟩
  | applyReward happly =>
    exact ⟨.applyReward (hunfiled haddressee) hattributed.armed happly, rfl⟩
  | chargeLedger hcharge =>
    obtain rfl := Option.some.inj haddressee
    obtain ⟨rfl, -⟩ := Registry.chargeLedger_eq_ok_iff.mp hcharge
    exact ⟨.seedLedger hother _ governor.registry, rfl⟩
  | seedLedger seeded ledger =>
    obtain rfl := Option.some.inj haddressee
    exact ⟨.seedLedger hother ledger governor.registry, rfl⟩
  | setPresetStatus => cases haddressee
  | prune hcutoff =>
    cases command with
    | prunePulls | pruneExpired => cases haddressee
    | _ => cases hcutoff

/-- A command that is addressed to another symbol changes the arena alone, and the mirror of the
symbol stays one. -/
theorem mirrors_of_step_of_other (hmirrors : governor.arena.Mirrors shares symbol reduced)
    (hsound : governor.registry.Sound) (hattributed : Attributed past governor.arena)
    (hcommand : ∀ arm, command ≠ .restoreArm arm) (hafresh : command.logsAfresh past = true)
    {other : String} (haddressee : command.addressee? past governor = some other)
    (hother : other ≠ symbol)
    (hcovers : shares.Covers (command.addressee? past governor = some symbol) governor.arena
      next.arena)
    (hstep : governor.step command = .ok (next, answer)) :
    next = { governor with arena := next.arena } ∧ next.arena.Mirrors shares symbol reduced := by
  have hhousekeeping : ∀ now, command ≠ .pruneExpired now := by
    rintro now rfl
    cases haddressee
  obtain ⟨harenaStep, -, -⟩ := arenaStep_of_step hstep
  rw [haddressee, decide_eq_false (mt Option.some.inj hother)] at hcovers
  exact ⟨eq_withArena_of_step (Command.sparesArena_of_addressee? haddressee) hhousekeeping hstep,
    hmirrors.idle
      (sameOf_of_arenaStep hsound hattributed hcommand hafresh haddressee hother harenaStep)
      (harenaStep.drawnLe hsound) hcovers⟩

end Governor

end ExposureControl
