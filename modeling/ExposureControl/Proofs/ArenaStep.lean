import ExposureControl.Governor.Command

/-!
# What a step does to the arena

Most commands leave the arms, the pulls and the ledgers alone.  The others change them in a few
ways, which `ArenaStep` lists; a statement about all runs of the governor that concerns selection
alone is proved by cases on it.  No command changes the settings.
-/

namespace ExposureControl

namespace Command

/-- Whether a command has no part in selection. -/
def sparesArena : Command → Bool
  | .advance _ | .setClock _ | .submit _ | .fill .. | .registerShadow _ | .priceTick ..
  | .restorePosition _ | .reportLive .. | .reportShadow .. | .bookLive ..
  | .recordTradeResult .. | .resetMonitor | .setKillSwitch _ | .setMode _ | .clearAlerts => true
  | _ => false

/-- The decision and the outcome that a command reports.  The result of a trade is shaped into an
outcome by the settings. -/
def report? (settings : Settings) : Command → Option (DecisionId × Outcome)
  | .recordOutcome decision outcome => some (decision, outcome)
  | .recordTrade decision profit slippage fees =>
    (Outcome.ofTrade settings.selection.reward profit slippage fees).toOption.map
      fun outcome => (decision, outcome)
  | _ => none

/-- The time before which a command drops pulls. -/
def pullCutoff? (settings : Settings) : Command → Option Instant
  | .prunePulls cutoff => some cutoff
  | .pruneExpired now =>
    (Span.days settings.selection.pullRetentionDays >>= now.before).toOption
  | _ => none

end Command

/-- The arena after a command, with the answer to the command. -/
inductive ArenaStep (governor : Governor) : Command → Except Refusal Reply → Arena → Prop
  | spared {command : Command} {answer : Except Refusal Reply}
      (hspared : command.sparesArena = true) :
      ArenaStep governor command answer governor.arena
  | ensureArms (contest : Contest) (offers : List Offer) :
      ArenaStep governor (.ensureArms contest offers)
        (.ok (.arms (governor.registry.ensureArms contest offers governor.clock).2))
        { governor.arena with
          registry := (governor.registry.ensureArms contest offers governor.clock).1 }
  | restoreArm (arm : Arm) :
      ArenaStep governor (.restoreArm arm) (.ok .done)
        { governor.arena with registry := governor.registry.restoreArm arm }
  | select {contest : Contest} {context : Context} {arena : Arena}
      {result : Except Refusal Selection}
      (hselect : governor.arena.select governor.settings.selection governor.seeding
        governor.clock contest context = .ok (arena, result)) :
      ArenaStep governor (.select contest context) (result.map .selection) arena
  | report {command : Command} {decision : DecisionId} {outcome : Outcome} {arena : Arena}
      {result : Except Refusal (Option Pull)}
      (hreport : command.report? governor.settings = some (decision, outcome))
      (hrecord : governor.arena.recordOutcome governor.settings.selection governor.clock
        decision outcome = .ok (arena, result)) :
      ArenaStep governor command (result.map .pull) arena
  | setStatus (id : ObjectId) (status : ArmStatus) :
      ArenaStep governor (.setStatus id status)
        ((governor.registry.setStatus id status governor.clock).2.map .arm)
        { governor.arena with
          registry := (governor.registry.setStatus id status governor.clock).1 }
  | setPresetStatus (preset : ObjectId) (status : ArmStatus) :
      ArenaStep governor (.setPresetStatus preset status)
        ((governor.registry.setPresetStatus preset status governor.clock).2.map .count)
        { governor.arena with
          registry := (governor.registry.setPresetStatus preset status governor.clock).1 }
  | resetArms (contest : Contest) :
      ArenaStep governor (.resetArms contest)
        (.ok (.count (governor.registry.resetStats contest governor.clock).2))
        { governor.arena with
          registry := (governor.registry.resetStats contest governor.clock).1 }
  | logPull {arm : ObjectId} {decision : DecisionId} {context : Context} {halfLife : Span}
      {time : Instant} {registry : Registry} {result : Except Refusal Pull}
      (hlog : governor.registry.logPull arm context decision halfLife time =
        .ok (registry, result)) :
      ArenaStep governor (.logPull arm decision context halfLife time)
        (result.map fun pull => .pull (some pull)) { governor.arena with registry }
  | applyReward {decision : DecisionId} {outcome : Outcome} {halfLife : Span} {time : Instant}
      {registry : Registry} {result : Except Refusal Pull}
      (happly : governor.registry.applyReward decision outcome halfLife time =
        .ok (registry, result)) :
      ArenaStep governor (.applyReward decision outcome halfLife time)
        (result.map fun pull => .pull (some pull)) { governor.arena with registry }
  | chargeLedger {symbol : String} {candidate : Bool} {time : Instant} {registry : Registry}
      (hcharge : governor.registry.chargeLedger symbol candidate time = .ok registry) :
      ArenaStep governor (.chargeLedger symbol candidate time) (.ok .done)
        { governor.arena with registry }
  | seedLedger (symbol : String) (ledger : Ledger) :
      ArenaStep governor (.seedLedger symbol ledger) (.ok .done)
        { governor.arena with registry := governor.registry.seedLedger symbol ledger }
  | prune {command : Command} {cutoff : Instant} {answer : Except Refusal Reply}
      (hcutoff : command.pullCutoff? governor.settings = some cutoff) :
      ArenaStep governor command answer
        { governor.arena with registry := (governor.registry.prunePulls cutoff).1 }

/-! ## What has no part in selection -/

/-- Two governors with the same settings and the same state of selection. -/
structure Governor.SameArena (before after : Governor) : Prop where
  settings : after.settings = before.settings
  seeding : after.seeding = before.seeding
  arena : after.arena = before.arena

namespace Governor.SameArena

variable {before middle after : Governor}

theorem trans (hfirst : SameArena before middle) (hsecond : SameArena middle after) :
    SameArena before after :=
  ⟨hsecond.settings.trans hfirst.settings, hsecond.seeding.trans hfirst.seeding,
    hsecond.arena.trans hfirst.arena⟩

theorem recordTradeResult (track : Drift.Track) (result : Float) (governor : Governor) :
    SameArena governor (governor.recordTradeResult track result) :=
  ⟨rfl, rfl, rfl⟩

theorem bookLive (symbol : String) (result : Float) (governor : Governor) :
    SameArena governor (governor.bookLive symbol result) :=
  ⟨rfl, rfl, rfl⟩

theorem forwardFills (fills : List Shadow.BookedFill) (governor : Governor) :
    SameArena governor (fills.foldl Governor.forwardFill governor) := by
  induction fills generalizing governor with
  | nil => exact ⟨rfl, rfl, rfl⟩
  | cons fill rest ih =>
    have hfirst : SameArena governor (governor.forwardFill fill) := ⟨rfl, rfl, rfl⟩
    exact hfirst.trans (ih (governor.forwardFill fill))

theorem reportShadow (symbol : String) (result : Float) (governor : Governor) :
    SameArena governor (governor.reportShadow symbol result) := by
  have hbooked : SameArena governor { governor with
      shadow := (governor.shadow.bookShadow governor.settings.shadow symbol result).1 } :=
    ⟨rfl, rfl, rfl⟩
  exact hbooked.trans (forwardFills _ _)

theorem priceTick {symbol : String} {price : Float} {closed : List Shadow.Position}
    (htick : before.priceTick symbol price = .ok (after, closed)) : SameArena before after := by
  simp only [Governor.priceTick, Fault.bind_eq_ok_iff] at htick
  obtain ⟨⟨shadow, positions, fills⟩, -, hdone⟩ := htick
  simp only [Fault.pure_eq_ok_iff, Prod.mk.injEq] at hdone
  obtain ⟨rfl, -⟩ := hdone
  have hticked : SameArena before { before with shadow } := ⟨rfl, rfl, rfl⟩
  exact hticked.trans (forwardFills fills _)

theorem fill {order : String} {price : Float} {spread : Option Float}
    {filledAt : Option Instant} {sample : Option Costs.Sample}
    (hfill : before.fill order price spread filledAt = .ok (after, sample)) :
    SameArena before after := by
  simp only [Governor.fill, Fault.bind_eq_ok_iff] at hfill
  obtain ⟨⟨costs, drawn⟩, -, hdone⟩ := hfill
  simp only [Fault.pure_eq_ok_iff, Prod.mk.injEq] at hdone
  obtain ⟨rfl, -⟩ := hdone
  exact ⟨rfl, rfl, rfl⟩

theorem advance {span : Span} (hadvance : before.advance span = .ok after) :
    SameArena before after := by
  simp only [Governor.advance, Fault.bind_eq_ok_iff] at hadvance
  obtain ⟨clock, -, hdone⟩ := hadvance
  simp only [Fault.pure_eq_ok_iff] at hdone
  obtain rfl := hdone
  exact ⟨rfl, rfl, rfl⟩

end Governor.SameArena

/-! ## Every command -/

theorem Governor.sameArena_of_step {governor next : Governor} {command : Command}
    {answer : Except Refusal Reply} (hspared : command.sparesArena = true)
    (hstep : governor.step command = .ok (next, answer)) : SameArena governor next := by
  cases command with
  | advance span =>
    simp only [step, answering, Fault.bind_eq_ok_iff, Except.ok.injEq, Prod.mk.injEq] at hstep
    obtain ⟨moved, hadvance, rfl, -⟩ := hstep
    exact .advance hadvance
  | fill order price spread filledAt =>
    simp only [step, answering, Fault.bind_eq_ok_iff, Except.ok.injEq, Prod.mk.injEq] at hstep
    obtain ⟨filled, hfill, rfl, -⟩ := hstep
    exact .fill hfill
  | priceTick symbol price =>
    simp only [step, answering, Fault.bind_eq_ok_iff, Except.ok.injEq, Prod.mk.injEq] at hstep
    obtain ⟨ticked, htick, rfl, -⟩ := hstep
    exact .priceTick htick
  | reportShadow symbol result =>
    simp only [step, answering, Except.ok.injEq, Prod.mk.injEq] at hstep
    obtain ⟨rfl, -⟩ := hstep
    exact .reportShadow symbol result governor
  | reportLive symbol result =>
    simp only [step, answering, Except.ok.injEq, Prod.mk.injEq] at hstep
    obtain ⟨rfl, -⟩ := hstep
    exact (SameArena.bookLive symbol result governor).trans (.recordTradeResult .live result _)
  | setClock _ | submit _ | registerShadow _ | restorePosition _ | bookLive _ _
  | recordTradeResult _ _ | resetMonitor | setKillSwitch _ | setMode _ | clearAlerts =>
    simp only [step, answering, Except.ok.injEq, Prod.mk.injEq] at hstep
    obtain ⟨rfl, -⟩ := hstep
    exact ⟨rfl, rfl, rfl⟩
  | _ => cases hspared

theorem Governor.tryArena_eq_ok_iff {α : Type} {change : Arena → Except Fault (Arena × α)}
    {governor next : Governor} {answer : α} :
    governor.tryArena change = .ok (next, answer) ↔
      ∃ arena, change governor.arena = .ok (arena, answer) ∧ next = { governor with arena } := by
  simp only [tryArena, Fault.bind_eq_ok_iff, Fault.pure_eq_ok_iff, Prod.mk.injEq, Prod.exists]
  constructor
  · rintro ⟨arena, reply, hchange, rfl, rfl⟩
    exact ⟨arena, hchange, rfl⟩
  · rintro ⟨arena, hchange, rfl⟩
    exact ⟨arena, answer, hchange, rfl, rfl⟩

/-- A change of the registry alone that may be a fault. -/
theorem Governor.tryRegistry_eq_ok_iff {α : Type}
    {change : Registry → Except Fault (Registry × α)} {governor next : Governor} {answer : α} :
    governor.tryRegistry change = .ok (next, answer) ↔
      ∃ registry, change governor.registry = .ok (registry, answer) ∧
        next = { governor with arena := { governor.arena with registry } } := by
  simp only [tryRegistry, tryArena_eq_ok_iff, Arena.tryRegistry, Fault.bind_eq_ok_iff,
    Fault.pure_eq_ok_iff, Prod.mk.injEq, Prod.exists]
  constructor
  · rintro ⟨arena, ⟨registry, reply, hchange, rfl, rfl⟩, rfl⟩
    exact ⟨registry, hchange, rfl⟩
  · rintro ⟨registry, hchange, rfl⟩
    exact ⟨_, ⟨registry, answer, hchange, rfl, rfl⟩, rfl⟩

/-- Recording an outcome changes the arena alone. -/
theorem Governor.recordOutcome_eq_ok_iff {governor next : Governor} {decision : DecisionId}
    {outcome : Outcome} {result : Except Refusal (Option Pull)} :
    governor.recordOutcome decision outcome = .ok (next, result) ↔
      ∃ arena, governor.arena.recordOutcome governor.settings.selection governor.clock decision
          outcome = .ok (arena, result) ∧ next = { governor with arena } :=
  tryArena_eq_ok_iff

/-- A pass of housekeeping drops pulls and keeps the rest of the arena. -/
theorem Governor.arena_pruneExpired {governor next : Governor} {now : Instant}
    {removals : Removals} (hprune : governor.pruneExpired now = .ok (next, removals)) :
    ∃ cutoff, (Command.pruneExpired now).pullCutoff? governor.settings = some cutoff ∧
      next.settings = governor.settings ∧ next.seeding = governor.seeding ∧
      next.arena =
        { governor.arena with registry := (governor.registry.prunePulls cutoff).1 } := by
  simp only [pruneExpired, Fault.bind_eq_ok_iff, Fault.pure_eq_ok_iff, Prod.mk.injEq] at hprune
  obtain ⟨_, -, _, -, _, -, retention, hretention, cutoff, hcutoff, rfl, -⟩ := hprune
  refine ⟨cutoff, ?_, rfl, rfl, rfl⟩
  simp [Command.pullCutoff?, hretention, hcutoff, bind, Except.bind, Except.toOption]

/-- Every step of the governor is one of the listed changes of its arena, under settings that stay
as they are. -/
theorem Governor.arenaStep_of_step {governor next : Governor} {command : Command}
    {answer : Except Refusal Reply} (hstep : governor.step command = .ok (next, answer)) :
    ArenaStep governor command answer next.arena ∧ next.settings = governor.settings ∧
      next.seeding = governor.seeding := by
  by_cases hspared : command.sparesArena = true
  · obtain ⟨hsettings, hseeding, harena⟩ := sameArena_of_step hspared hstep
    exact ⟨harena ▸ .spared hspared, hsettings, hseeding⟩
  cases command with
  | ensureArms contest offers =>
    simp only [step, answering, Except.ok.injEq, Prod.mk.injEq] at hstep
    obtain ⟨rfl, rfl⟩ := hstep
    exact ⟨.ensureArms contest offers, rfl, rfl⟩
  | restoreArm arm =>
    simp only [step, answering, Except.ok.injEq, Prod.mk.injEq] at hstep
    obtain ⟨rfl, rfl⟩ := hstep
    exact ⟨.restoreArm arm, rfl, rfl⟩
  | select contest context =>
    simp only [step, attempting, Fault.bind_eq_ok_iff, select, tryArena_eq_ok_iff,
      Except.ok.injEq, Prod.mk.injEq, Prod.exists] at hstep
    obtain ⟨_, result, ⟨arena, hselect, rfl⟩, rfl, rfl⟩ := hstep
    exact ⟨.select hselect, rfl, rfl⟩
  | recordOutcome decision outcome =>
    simp only [step, attempting, Fault.bind_eq_ok_iff, recordOutcome_eq_ok_iff,
      Except.ok.injEq, Prod.mk.injEq, Prod.exists] at hstep
    obtain ⟨_, result, ⟨arena, hrecord, rfl⟩, rfl, rfl⟩ := hstep
    exact ⟨.report rfl hrecord, rfl, rfl⟩
  | recordTrade decision profit slippage fees =>
    simp only [step, attempting, Fault.bind_eq_ok_iff, recordTrade, recordOutcome_eq_ok_iff,
      Except.ok.injEq, Prod.mk.injEq, Prod.exists] at hstep
    obtain ⟨_, result, ⟨outcome, houtcome, arena, hrecord, rfl⟩, rfl, rfl⟩ := hstep
    exact ⟨.report (by simp [Command.report?, houtcome, Except.toOption]) hrecord, rfl, rfl⟩
  | setStatus id status =>
    simp only [step, attempting, Except.ok.injEq, Prod.mk.injEq] at hstep
    obtain ⟨rfl, rfl⟩ := hstep
    exact ⟨.setStatus id status, rfl, rfl⟩
  | setPresetStatus preset status =>
    simp only [step, attempting, Except.ok.injEq, Prod.mk.injEq] at hstep
    obtain ⟨rfl, rfl⟩ := hstep
    exact ⟨.setPresetStatus preset status, rfl, rfl⟩
  | resetArms contest =>
    simp only [step, answering, Except.ok.injEq, Prod.mk.injEq] at hstep
    obtain ⟨rfl, rfl⟩ := hstep
    exact ⟨.resetArms contest, rfl, rfl⟩
  | logPull arm decision context halfLife time =>
    simp only [step, attempting, Fault.bind_eq_ok_iff, tryRegistry_eq_ok_iff,
      Except.ok.injEq, Prod.mk.injEq, Prod.exists] at hstep
    obtain ⟨_, result, ⟨registry, hlog, rfl⟩, rfl, rfl⟩ := hstep
    exact ⟨.logPull hlog, rfl, rfl⟩
  | applyReward decision outcome halfLife time =>
    simp only [step, attempting, Fault.bind_eq_ok_iff, tryRegistry_eq_ok_iff,
      Except.ok.injEq, Prod.mk.injEq, Prod.exists] at hstep
    obtain ⟨_, result, ⟨registry, happly, rfl⟩, rfl, rfl⟩ := hstep
    exact ⟨.applyReward happly, rfl, rfl⟩
  | chargeLedger symbol candidate time =>
    simp only [step, answering, Fault.bind_eq_ok_iff, tryRegistry_eq_ok_iff,
      Except.ok.injEq, Prod.mk.injEq, Prod.exists] at hstep
    obtain ⟨_, _, ⟨registry, hcharge, rfl⟩, rfl, rfl⟩ := hstep
    cases hcharged : governor.registry.chargeLedger symbol candidate time with
    | error fault => simp [hcharged, Except.map] at hcharge
    | ok charged =>
      simp only [hcharged, Except.map, Except.ok.injEq, Prod.mk.injEq] at hcharge
      obtain ⟨rfl, -⟩ := hcharge
      exact ⟨.chargeLedger hcharged, rfl, rfl⟩
  | seedLedger symbol ledger =>
    simp only [step, answering, Except.ok.injEq, Prod.mk.injEq] at hstep
    obtain ⟨rfl, rfl⟩ := hstep
    exact ⟨.seedLedger symbol ledger, rfl, rfl⟩
  | prunePulls cutoff =>
    simp only [step, answering, Except.ok.injEq, Prod.mk.injEq] at hstep
    obtain ⟨rfl, -⟩ := hstep
    exact ⟨.prune rfl, rfl, rfl⟩
  | pruneExpired now =>
    simp only [step, answering, Fault.bind_eq_ok_iff, Except.ok.injEq, Prod.mk.injEq,
      Prod.exists] at hstep
    obtain ⟨_, removals, hprune, rfl, -⟩ := hstep
    obtain ⟨cutoff, hcutoff, hsettings, hseeding, harena⟩ := arena_pruneExpired hprune
    exact ⟨harena ▸ .prune hcutoff, hsettings, hseeding⟩
  | _ => exact absurd rfl hspared

/-- A command with a part in selection changes the arena alone, unless it is a pass of
housekeeping. -/
theorem Governor.eq_withArena_of_step {governor next : Governor} {command : Command}
    {answer : Except Refusal Reply} (hpart : command.sparesArena = false)
    (hcommand : ∀ now, command ≠ .pruneExpired now)
    (hstep : governor.step command = .ok (next, answer)) :
    next = { governor with arena := next.arena } := by
  cases command with
  | select contest context =>
    simp only [step, attempting, Fault.bind_eq_ok_iff, select, tryArena_eq_ok_iff,
      Except.ok.injEq, Prod.mk.injEq, Prod.exists] at hstep
    obtain ⟨_, _, ⟨arena, -, rfl⟩, rfl, -⟩ := hstep
    rfl
  | recordOutcome decision outcome =>
    simp only [step, attempting, Fault.bind_eq_ok_iff, recordOutcome_eq_ok_iff,
      Except.ok.injEq, Prod.mk.injEq, Prod.exists] at hstep
    obtain ⟨_, _, ⟨arena, -, rfl⟩, rfl, -⟩ := hstep
    rfl
  | recordTrade decision profit slippage fees =>
    simp only [step, attempting, Fault.bind_eq_ok_iff, recordTrade, recordOutcome_eq_ok_iff,
      Except.ok.injEq, Prod.mk.injEq, Prod.exists] at hstep
    obtain ⟨_, _, ⟨_, -, arena, -, rfl⟩, rfl, -⟩ := hstep
    rfl
  | logPull arm decision context halfLife time =>
    simp only [step, attempting, Fault.bind_eq_ok_iff, tryRegistry_eq_ok_iff,
      Except.ok.injEq, Prod.mk.injEq, Prod.exists] at hstep
    obtain ⟨_, _, ⟨registry, -, rfl⟩, rfl, -⟩ := hstep
    rfl
  | applyReward decision outcome halfLife time =>
    simp only [step, attempting, Fault.bind_eq_ok_iff, tryRegistry_eq_ok_iff,
      Except.ok.injEq, Prod.mk.injEq, Prod.exists] at hstep
    obtain ⟨_, _, ⟨registry, -, rfl⟩, rfl, -⟩ := hstep
    rfl
  | chargeLedger symbol candidate time =>
    simp only [step, answering, Fault.bind_eq_ok_iff, tryRegistry_eq_ok_iff,
      Except.ok.injEq, Prod.mk.injEq, Prod.exists] at hstep
    obtain ⟨_, _, ⟨registry, -, rfl⟩, rfl, -⟩ := hstep
    rfl
  | pruneExpired now => exact absurd rfl (hcommand now)
  | ensureArms _ _ | restoreArm _ | setStatus _ _ | setPresetStatus _ _ | resetArms _
  | seedLedger _ _ | prunePulls _ =>
    simp only [step, answering, attempting, Except.ok.injEq, Prod.mk.injEq] at hstep
    obtain ⟨rfl, -⟩ := hstep
    rfl
  | _ => cases hpart

/-! ## The same command in another arena -/

namespace Governor

variable {governor next : Governor} {command : Command} {answer : Except Refusal Reply}

theorem forwardFills_withArena (fills : List Shadow.BookedFill) (arena : Arena)
    (governor : Governor) :
    fills.foldl forwardFill { governor with arena } =
      { fills.foldl forwardFill governor with arena } := by
  induction fills generalizing governor with
  | nil => rfl
  | cons fill rest ih => exact ih (governor.forwardFill fill)

theorem step_withArena (hspared : command.sparesArena = true)
    (hstep : governor.step command = .ok (next, answer)) (arena : Arena) :
    ({ governor with arena } : Governor).step command = .ok ({ next with arena }, answer) := by
  cases command with
  | advance span =>
    simp only [step, answering, advance, Fault.bind_eq_ok_iff, Fault.pure_eq_ok_iff,
      Except.ok.injEq, Prod.mk.injEq] at hstep ⊢
    obtain ⟨_, ⟨clock, hclock, rfl⟩, rfl, rfl⟩ := hstep
    exact ⟨_, ⟨clock, hclock, rfl⟩, rfl, rfl⟩
  | fill order price spread filledAt =>
    simp only [step, answering, fill, Fault.bind_eq_ok_iff, Fault.pure_eq_ok_iff,
      Except.ok.injEq, Prod.mk.injEq, Prod.exists] at hstep ⊢
    obtain ⟨_, _, ⟨costs, sample, hfill, rfl, rfl⟩, rfl, rfl⟩ := hstep
    exact ⟨_, _, ⟨costs, sample, hfill, rfl, rfl⟩, rfl, rfl⟩
  | priceTick symbol price =>
    simp only [step, answering, priceTick, Fault.bind_eq_ok_iff, Fault.pure_eq_ok_iff,
      Except.ok.injEq, Prod.mk.injEq, Prod.exists] at hstep ⊢
    obtain ⟨_, _, ⟨shadow, closed, fills, htick, rfl, rfl⟩, rfl, rfl⟩ := hstep
    exact ⟨_, _, ⟨shadow, closed, fills, htick, rfl, rfl⟩,
      forwardFills_withArena fills arena { governor with shadow }, rfl⟩
  | reportShadow symbol result =>
    simp only [step, answering, Except.ok.injEq, Prod.mk.injEq] at hstep ⊢
    obtain ⟨rfl, rfl⟩ := hstep
    have hforwarded := forwardFills_withArena
      (governor.shadow.bookShadow governor.settings.shadow symbol result).2.toList arena
      { governor with
        shadow := (governor.shadow.bookShadow governor.settings.shadow symbol result).1 }
    exact ⟨hforwarded, rfl⟩
  | setClock _ | submit _ | registerShadow _ | restorePosition _ | reportLive _ _ | bookLive _ _
  | recordTradeResult _ _ | resetMonitor | setKillSwitch _ | setMode _ | clearAlerts =>
    simp only [step, answering, Except.ok.injEq, Prod.mk.injEq] at hstep ⊢
    obtain ⟨rfl, rfl⟩ := hstep
    exact ⟨rfl, rfl⟩
  | _ => cases hspared

/-- A pass of housekeeping looks at the arena only to drop its pulls. -/
theorem pruneExpired_withArena {now : Instant} {removals : Removals}
    (hprune : governor.pruneExpired now = .ok (next, removals)) (arena : Arena) :
    ∃ cutoff, (Command.pruneExpired now).pullCutoff? governor.settings = some cutoff ∧
      next.arena = { governor.arena with
        registry := (governor.registry.prunePulls cutoff).1 } ∧
      ({ governor with arena } : Governor).pruneExpired now =
        .ok ({ next with arena := { arena with registry := (arena.registry.prunePulls cutoff).1 } },
          { removals with pulls := (arena.registry.prunePulls cutoff).2 }) := by
  simp only [pruneExpired, Fault.bind_eq_ok_iff, Fault.pure_eq_ok_iff, Prod.mk.injEq] at hprune ⊢
  obtain ⟨costs, hcosts, monitor, hmonitor, shadow, hshadow, retention, hretention, cutoff,
    hcutoff, rfl, rfl⟩ := hprune
  refine ⟨cutoff, ?_, rfl, costs, hcosts, monitor, hmonitor, shadow, hshadow, retention,
    hretention, cutoff, hcutoff, rfl, rfl⟩
  simp [Command.pullCutoff?, hretention, hcutoff, bind, Except.bind, Except.toOption]

/-- A report is carried out by recording its outcome. -/
theorem step_of_report {decision : DecisionId} {outcome : Outcome}
    {result : Except Refusal (Option Pull)}
    (hreport : command.report? governor.settings = some (decision, outcome))
    (hrecord : governor.recordOutcome decision outcome = .ok (next, result)) :
    governor.step command = .ok (next, result.map .pull) := by
  cases command with
  | recordOutcome =>
    obtain ⟨rfl, rfl⟩ := Prod.mk.inj (Option.some.inj hreport)
    simp only [step, hrecord]
    rfl
  | recordTrade =>
    obtain ⟨shaped, houtcome, hpair⟩ := Option.map_eq_some_iff.mp hreport
    obtain ⟨rfl, rfl⟩ := Prod.mk.inj hpair
    unfold Except.toOption at houtcome
    split at houtcome
    · next hshaped =>
      obtain rfl := Option.some.inj houtcome
      simp only [step, recordTrade, hshaped, bind, Except.bind, hrecord]
      rfl
    · cases houtcome
  | _ => cases hreport

end Governor

end ExposureControl
