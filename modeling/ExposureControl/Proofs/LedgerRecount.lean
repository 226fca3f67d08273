import ExposureControl.Proofs.CanaryBudget

/-!
# Ledgers recounted from pulls

The pulls on record and the ledgers are written one after the other by each selection.  Both count
the selections of a history, so a ledger can be recounted from the pulls of its day for as long as
none of them is dropped.
-/

namespace ExposureControl

/-- The ledger that a symbol's pulls of a day amount to. -/
def Registry.recount (registry : Registry) (symbol : String) (day : Day) : Ledger where
  day
  total := (registry.historyOf symbol).countP fun pull => pull.loggedAt.day = day
  candidates := (registry.historyOf symbol).countP fun pull =>
    pull.loggedAt.day = day && pull.role = .candidate

namespace Command

/-- Whether a command logs a pull without a selection. -/
def logsPull : Command → Bool
  | .logPull .. => true
  | _ => false

def prunes : Command → Bool
  | .prunePulls _ | .pruneExpired _ => true
  | _ => false

end Command

/-- Whether a turn drops a pull of a day. -/
def Turn.DropsPullOf (day : Day) (turn : Turn) : Prop :=
  turn.command.prunes = true ∧ ∃ symbol, ∃ pull ∈ turn.before.registry.historyOf symbol,
    pull.loggedAt.day = day ∧ pull ∉ turn.after.registry.historyOf symbol

variable {symbol : String} {day : Day} {turns : List Turn}

/-! ## What changes a recount -/

theorem Registry.recount_congr {before after : Registry}
    (hpulls : (after.historyOf symbol).map (fun pull => (pull.loggedAt, pull.role)) =
      (before.historyOf symbol).map fun pull => (pull.loggedAt, pull.role)) :
    after.recount symbol day = before.recount symbol day := by
  have hcount (test : Instant × ArmRole → Bool) :=
    congrArg (List.countP test) hpulls
  simp only [List.countP_map, Function.comp_def] at hcount
  rw [recount, recount, Ledger.mk.injEq]
  exact ⟨rfl, hcount fun seen => seen.1.day = day,
    hcount fun seen => seen.1.day = day && seen.2 = .candidate⟩

/-- Putting a pull on record counts towards its day. -/
theorem Registry.recount_of_append {before after : Registry} {pull : Pull}
    (happend : after.historyOf symbol = before.historyOf symbol ++ [pull]) :
    after.recount symbol day =
      if pull.loggedAt.day = day then
        ⟨day, (before.recount symbol day).total + 1,
          (before.recount symbol day).candidates + (decide (pull.role = .candidate)).toNat⟩
      else before.recount symbol day := by
  simp only [recount, happend, List.countP_append, List.countP_singleton]
  by_cases hday : pull.loggedAt.day = day
  · cases pull.role <;> simp [hday]
  · simp [hday]

/-- Dropping only pulls of other days changes nothing. -/
theorem Registry.recount_of_filter {before after : Registry} {keep : Pull → Bool}
    (hfilter : after.historyOf symbol = (before.historyOf symbol).filter keep)
    (hkept : ∀ pull ∈ before.historyOf symbol, pull.loggedAt.day = day →
      pull ∈ after.historyOf symbol) :
    after.recount symbol day = before.recount symbol day := by
  have hcount (test : Pull → Bool) (htest : ∀ pull, test pull = true → pull.loggedAt.day = day) :
      (after.historyOf symbol).countP test = (before.historyOf symbol).countP test := by
    rw [hfilter, List.countP_filter]
    apply List.countP_congr
    intro pull hpull
    rw [Bool.and_eq_true]
    refine ⟨fun hboth => hboth.1, fun hpasses => ⟨hpasses, ?_⟩⟩
    have hstays := hkept pull hpull (htest pull hpasses)
    rw [hfilter] at hstays
    exact (List.mem_filter.mp hstays).2
  rw [recount, recount, Ledger.mk.injEq]
  refine ⟨rfl, hcount _ fun pull => of_decide_eq_true, hcount _ fun pull hboth => ?_⟩
  exact of_decide_eq_true (Bool.and_eq_true_iff.mp hboth).1

/-! ## What a step does to a recount -/

variable {governor : Governor} {command : Command} {answer : Except Refusal Reply}
  {arena : Arena}

/-- A step that neither selects nor logs nor drops a pull of the day leaves the recount as it
was. -/
theorem ArenaStep.recount_of_not_select (hstep : ArenaStep governor command answer arena)
    (hselect : ∀ contest context, command ≠ .select contest context)
    (hcommand : command.logsPull = false)
    (hkept : command.prunes = true → ∀ pull ∈ governor.registry.historyOf symbol,
      pull.loggedAt.day = day → pull ∈ arena.registry.historyOf symbol) :
    arena.registry.recount symbol day = governor.registry.recount symbol day := by
  by_cases hkeeps : command.keepsRecords = true
  · apply Registry.recount_congr
    rw [(hstep.sameRecords hkeeps).1.historyOf]
  cases hstep with
  | spared hspared => exact absurd (by simp [Command.keepsRecords, hspared]) hkeeps
  | select => exact absurd rfl (hselect _ _)
  | report _ hrecord =>
    obtain ⟨-, rfl, -⟩ | ⟨usable, registry, result, -, happly, rfl, -⟩ :=
      Arena.recordOutcome_cases hrecord
    · rfl
    · exact Registry.recount_congr
        (Registry.map_historyOf_applyReward (fun _ _ => rfl) happly symbol)
  | logPull => cases hcommand
  | applyReward happly =>
    exact Registry.recount_congr
      (Registry.map_historyOf_applyReward (fun _ _ => rfl) happly symbol)
  | chargeLedger hcharge =>
    obtain ⟨rfl, -⟩ := Registry.chargeLedger_eq_ok_iff.mp hcharge
    rfl
  | seedLedger => rfl
  | @prune _ cutoff _ hcutoff =>
    have hprunes : command.prunes = true := by
      cases command with
      | prunePulls | pruneExpired => rfl
      | _ => cases hcutoff
    exact Registry.recount_of_filter
      (Registry.historyOf_prunePulls cutoff governor.registry symbol) (hkept hprunes)
  | ensureArms | restoreArm | setStatus | setPresetStatus | resetArms => exact absurd rfl hkeeps

/-- A selection adds what it selects to the recount of its day. -/
theorem ArenaStep.recount_of_select {contest : Contest} {context : Context}
    (hstep : ArenaStep governor (.select contest context) answer arena)
    (hsound : governor.registry.Sound) (after : Governor)
    (hbefore : governor.registry.recount symbol day = selectionsOn symbol day turns) :
    arena.registry.recount symbol day =
      selectionsOn symbol day (⟨governor, .select contest context, answer, after⟩ :: turns) := by
  cases hstep with
  | spared hspared => cases hspared
  | report hreport => cases hreport
  | prune hcutoff => cases hcutoff
  | select hdone =>
    obtain ⟨⟨refusal, rfl⟩, rfl⟩ | ⟨generator, arm, -, ⟨-, rfl⟩, rfl, rfl⟩ :=
      Arena.select_cases hsound hdone
    · rw [selectionsOn_cons_of_not_picks rfl]
      exact hbefore
    · have hhistory := Arena.historyOf_committed governor.settings.selection governor.clock arm
        context (governor.arena.withGenerator arm.contest.symbol generator) arm.contest.symbol
        symbol
      by_cases hsymbol : arm.contest.symbol = symbol
      · rw [if_pos hsymbol.symm] at hhistory
        refine (Registry.recount_of_append hhistory).trans ?_
        by_cases hday : governor.clock.day = day
        · rw [selectionsOn_cons_of_picks rfl hsymbol hday, ← hbefore]
          exact if_pos hday
        · rw [selectionsOn_cons_of_not_picks (by simp [Turn.picks, Turn.selected?, hday]),
            ← hbefore]
          exact if_neg hday
      · rw [if_neg (Ne.symm hsymbol)] at hhistory
        rw [selectionsOn_cons_of_not_picks
          (by simp [Turn.picks, Turn.selected?, Except.map, hsymbol]), ← hbefore]
        exact Registry.recount_congr (congrArg _ hhistory)

/-! ## Recounts along histories -/

/-- As long as only selections log pulls and none of a day's pulls is dropped, the pulls on record
count the selections of that day. -/
theorem History.recount_eq {start : Governor} (hhistory : History start turns governor)
    (hempty : start.arena = .empty)
    (hrestores : ∀ turn ∈ turns, turn.RestoresFaithfully)
    (hlogs : ∀ turn ∈ turns, turn.command.logsPull = false)
    (hdrops : ∀ turn ∈ turns, ¬ turn.DropsPullOf day) (symbol : String) :
    governor.registry.recount symbol day = selectionsOn symbol day turns := by
  induction hhistory with
  | start =>
    have hregistry : start.registry = .empty := congrArg Arena.registry hempty
    rw [hregistry]
    rfl
  | @turn turns before after command answer past step ih =>
    obtain ⟨-, hpastRestores⟩ := List.forall_mem_cons.mp hrestores
    obtain ⟨hcommand, hpastLogs⟩ := List.forall_mem_cons.mp hlogs
    obtain ⟨hdrop, hpastDrops⟩ := List.forall_mem_cons.mp hdrops
    have hpast := ih hpastRestores hpastLogs hpastDrops
    have hstep := (Governor.arenaStep_of_step step).1
    by_cases hselect : ∃ contest context, command = .select contest context
    · obtain ⟨contest, context, rfl⟩ := hselect
      exact hstep.recount_of_select (past.sound hempty hpastRestores) after hpast
    · have hother : ∀ contest context, command ≠ .select contest context :=
        fun contest context heq => hselect ⟨contest, context, heq⟩
      rw [selectionsOn_cons_of_not_picks
        (by rw [Turn.picks, Turn.selected?_of_not_select hother]; rfl), ← hpast]
      -- a pull of the day that is gone would have been dropped by this very turn
      apply hstep.recount_of_not_select hother hcommand
      intro hprunes pull hpull hday
      exact Classical.byContradiction fun hgone =>
        hdrop ⟨hprunes, symbol, pull, hpull, hday, hgone⟩

section

variable {settings : Settings} {entropy : Seeding} {notifier : Notifier} {clock : Instant}
  {start : Governor}

/-- If only selections log pulls and write ledgers and time never runs backwards, a symbol's
ledger is what can be recounted from the pulls of the day, unless some of them were dropped. -/
theorem ledgerOn_eq_recount
    (hcreate : Governor.create settings entropy notifier clock = .ok start)
    (hhistory : History start turns governor)
    (hclock : ∀ turn ∈ turns, turn.before.clock ≤ turn.after.clock)
    (hlogs : ∀ turn ∈ turns, turn.command.logsPull = false)
    (hwrites : ∀ turn ∈ turns, turn.command.writesLedgers = false)
    (hrestores : ∀ turn ∈ turns, turn.RestoresFaithfully) (symbol : String) {now : Instant}
    (hnow : governor.clock ≤ now) (hdrops : ∀ turn ∈ turns, ¬ turn.DropsPullOf now.day) :
    governor.registry.ledgerOn symbol now = governor.registry.recount symbol now.day := by
  obtain ⟨-, -, hempty⟩ := Governor.create_eq_ok hcreate
  calc
    governor.registry.ledgerOn symbol now = selectionsOn symbol now.day turns :=
      (hhistory.tracks hempty hclock hwrites symbol now.day).agrees (Instant.day_mono hnow)
    _ = governor.registry.recount symbol now.day :=
      (hhistory.recount_eq hempty hrestores hlogs hdrops symbol).symm

/-- Two selections on the first day and one on the second: the ledger of the second day is the
recount of the second day. -/
theorem ledgerOn_eq_recount_second_day :
    ∃ start turns governor, Governor.create { selection := { policy := .ucb1 } } 0 .log ⟨0⟩ =
        .ok start ∧
      History start turns governor ∧ (∀ turn ∈ turns, turn.before.clock ≤ turn.after.clock) ∧
      (∀ turn ∈ turns, turn.command.logsPull = false) ∧
      (∀ turn ∈ turns, turn.command.writesLedgers = false) ∧
      (∀ turn ∈ turns, turn.RestoresFaithfully) ∧
      (∀ turn ∈ turns, ¬ turn.DropsPullOf governor.clock.day) ∧
      governor.registry.ledgerOn "BTC" governor.clock = ⟨⟨1⟩, 1, 1⟩ ∧
      governor.registry.recount "BTC" governor.clock.day = ⟨⟨1⟩, 1, 1⟩ := by
  let contest : Contest := ⟨"BTC", "UP", .buy⟩
  let commands : List Command :=
    [.ensureArms contest [⟨.given ⟨1⟩, .candidate⟩, ⟨.given ⟨2⟩, .baseline⟩],
      .select contest .empty, .select contest .empty, .setClock ⟨Instant.microsPerDay⟩,
      .select contest .empty]
  obtain ⟨start, turns, governor, hcreate, hhistory, hcommands, hcheck⟩ :=
    Governor.exists_history_of_replays { selection := { policy := .ucb1 } } commands
      (fun turns governor =>
        turns.all (fun turn => turn.before.clock ≤ turn.after.clock) &&
        turns.all (fun turn => turn.command.logsPull == false) &&
        turns.all (fun turn => turn.command.writesLedgers == false) &&
        turns.all (fun turn => turn.command.prunes == false) &&
        governor.registry.ledgerOn "BTC" governor.clock == ⟨⟨1⟩, 1, 1⟩) (by decide +kernel)
  simp only [Bool.and_eq_true, List.all_eq_true, decide_eq_true_eq, beq_iff_eq] at hcheck
  obtain ⟨⟨⟨⟨hclock, hlogs⟩, hwrites⟩, hprunes⟩, hledger⟩ := hcheck
  have hrestores : ∀ turn ∈ turns, turn.RestoresFaithfully := by
    intro turn hturn arm hrestore
    have hcommand := Turn.command_mem hcommands hturn
    simp [hrestore, commands] at hcommand
  have hdrops : ∀ turn ∈ turns, ¬ turn.DropsPullOf governor.clock.day := by
    rintro turn hturn ⟨hprune, -⟩
    rw [hprunes turn hturn] at hprune
    cases hprune
  have hrecount := ledgerOn_eq_recount hcreate hhistory hclock hlogs hwrites hrestores "BTC"
    (Int.le_refl _) hdrops
  exact ⟨start, turns, governor, hcreate, hhistory, hclock, hlogs, hwrites, hrestores, hdrops,
    hledger, hrecount.symm.trans hledger⟩

/-- A charge without a selection is in the ledger and in no pull, although no ledger is
overwritten. -/
theorem ledgerOn_ne_recount_of_charge :
    ∃ start turns governor, Governor.create {} 0 .log ⟨0⟩ = .ok start ∧
      History start turns governor ∧ (∀ turn ∈ turns, turn.before.clock ≤ turn.after.clock) ∧
      (∀ turn ∈ turns, turn.command.logsPull = false) ∧
      (∀ turn ∈ turns, ∀ symbol ledger, turn.command ≠ .seedLedger symbol ledger) ∧
      (∀ turn ∈ turns, turn.RestoresFaithfully) ∧
      (∀ turn ∈ turns, ¬ turn.DropsPullOf governor.clock.day) ∧
      (governor.registry.ledgerOn "BTC" governor.clock).total = 1 ∧
      (governor.registry.recount "BTC" governor.clock.day).total = 0 := by
  obtain ⟨start, turns, governor, hcreate, hhistory, hcommands, hcheck⟩ :=
    Governor.exists_history_of_replays {} [.chargeLedger "BTC" true ⟨0⟩]
      (fun turns governor =>
        turns.all (fun turn => turn.before.clock ≤ turn.after.clock) &&
        (governor.registry.ledgerOn "BTC" governor.clock).total == 1 &&
        (governor.registry.recount "BTC" governor.clock.day).total == 0) (by decide +kernel)
  simp only [Bool.and_eq_true, List.all_eq_true, decide_eq_true_eq, beq_iff_eq] at hcheck
  obtain ⟨⟨hclock, htotal⟩, hrecount⟩ := hcheck
  have hcommand : ∀ turn ∈ turns, turn.command = .chargeLedger "BTC" true ⟨0⟩ :=
    fun turn hturn => List.mem_singleton.mp (Turn.command_mem hcommands hturn)
  refine ⟨start, turns, governor, hcreate, hhistory, hclock, fun turn hturn => ?_,
    fun turn hturn symbol ledger hseed => ?_, fun turn hturn arm hrestore => ?_,
    fun turn hturn hdrop => ?_, htotal, hrecount⟩
  · rw [hcommand turn hturn]
    rfl
  · rw [hcommand turn hturn] at hseed
    cases hseed
  · rw [hcommand turn hturn] at hrestore
    cases hrestore
  · have hprunes := hdrop.1
    rw [hcommand turn hturn] at hprunes
    cases hprunes

end

end ExposureControl
