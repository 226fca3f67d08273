import ExposureControl.Proofs.Records
import ExposureControl.Proofs.Soundness

/-!
# The canary budget over a history

As long as only selections charge ledgers and the clock never runs backwards, a symbol's ledger of
a day that is not over counts exactly the selections that were made on that day.  So the budget,
which each selection checks against the ledger, bounds the selections of candidates on every day.
-/

namespace ExposureControl

/-- Whether a command writes ledgers without a selection. -/
def Command.writesLedgers : Command → Bool
  | .chargeLedger .. | .seedLedger .. => true
  | _ => false

namespace Turn

def picks (symbol : String) (day : Day) (turn : Turn) : Bool :=
  turn.selected?.any fun selected =>
    selected.1.symbol = symbol && turn.before.clock.day = day

def picksCandidate (symbol : String) (day : Day) (turn : Turn) : Bool :=
  turn.picks symbol day && turn.selected?.any fun selected => selected.2.role = .candidate

end Turn

/-- The ledger that the turns of a history themselves amount to. -/
def selectionsOn (symbol : String) (day : Day) (turns : List Turn) : Ledger :=
  ⟨day, turns.countP (Turn.picks symbol day), turns.countP (Turn.picksCandidate symbol day)⟩

variable {symbol : String} {day : Day} {turns : List Turn}

/-! ## Counting selections -/

theorem candidates_selectionsOn_le (symbol : String) (day : Day) (turns : List Turn) :
    (selectionsOn symbol day turns).candidates ≤ (selectionsOn symbol day turns).total :=
  List.countP_mono_left fun _ _ hcandidate => (Bool.and_eq_true_iff.mp hcandidate).1

theorem selectionsOn_cons_of_not_picks {turn : Turn} (hpicks : turn.picks symbol day = false) :
    selectionsOn symbol day (turn :: turns) = selectionsOn symbol day turns := by
  have hcandidate : turn.picksCandidate symbol day = false := by
    rw [Turn.picksCandidate, hpicks, Bool.false_and]
  simp only [selectionsOn, List.countP_cons, hpicks, hcandidate, Bool.false_eq_true, if_false,
    Nat.add_zero]

/-- A turn that selects for the symbol on the day is counted once, and as a candidate if it
selects one. -/
theorem selectionsOn_cons_of_picks {turn : Turn} {contest : Contest} {selection : Selection}
    (hselected : turn.selected? = some (contest, selection)) (hsymbol : contest.symbol = symbol)
    (hday : turn.before.clock.day = day) :
    selectionsOn symbol day (turn :: turns) =
      ⟨day, (selectionsOn symbol day turns).total + 1,
        (selectionsOn symbol day turns).candidates +
          (decide (selection.role = .candidate)).toNat⟩ := by
  have hpicks : turn.picks symbol day = true := by
    simp [Turn.picks, hselected, hsymbol, hday]
  have hcandidate : turn.picksCandidate symbol day = decide (selection.role = .candidate) := by
    rw [Turn.picksCandidate, hpicks, hselected, Bool.true_and, Option.any_some]
  simp only [selectionsOn, List.countP_cons, hpicks, hcandidate, if_true, Ledger.mk.injEq,
    true_and]
  cases decide (selection.role = .candidate) <;> rfl

/-! ## What a step does to the ledgers -/

/-- A step that does not write ledgers keeps them and selects nothing, or selects an offered arm
and charges the ledger of its symbol, which has room for that. -/
theorem ArenaStep.ledgers_cases {governor next : Governor} {command : Command}
    {answer : Except Refusal Reply} (hstep : ArenaStep governor command answer next.arena)
    (hcommand : command.writesLedgers = false) :
    (next.registry.ledgers = governor.registry.ledgers ∧
        (⟨governor, command, answer, next⟩ : Turn).selected? = none) ∨
      ∃ contest arm selection,
        arm ∈ governor.arena.offered governor.settings.selection contest governor.clock ∧
        (⟨governor, command, answer, next⟩ : Turn).selected? = some (contest, selection) ∧
        selection.role = arm.role ∧
        next.registry.ledgers = governor.registry.ledgers.insert contest.symbol
          (governor.registry.nextLedger contest.symbol governor.clock arm) ∧
        (governor.registry.ledgerOn contest.symbol governor.clock).total + 1 < Word64.size ∧
        (arm.role = .candidate →
          (governor.registry.ledgerOn contest.symbol governor.clock).candidates + 1 <
            Word64.size) := by
  by_cases hkeeps : command.keepsRecords = true
  · refine .inl ⟨(hstep.sameRecords hkeeps).1.ledgers, Turn.selected?_of_not_select ?_⟩
    rintro contest context rfl
    cases hkeeps
  generalize harena : next.arena = arena at hstep
  have hregistry : next.registry = arena.registry := congrArg Arena.registry harena
  rw [hregistry]
  cases hstep with
  | spared hspared => exact absurd (by simp [Command.keepsRecords, hspared]) hkeeps
  | select hselect =>
    obtain ⟨⟨refusal, rfl⟩, hledgers⟩ | ⟨arm, harm, rfl, hcharged⟩ :=
      Arena.ledgers_select hselect
    · exact .inl ⟨hledgers, rfl⟩
    · exact .inr ⟨_, arm, _, harm, rfl, rfl, hcharged⟩
  | report hreport hrecord =>
    refine .inl ⟨?_, Turn.selected?_of_not_select ?_⟩
    · obtain ⟨-, rfl, -⟩ | ⟨usable, registry, result, -, happly, rfl, -⟩ :=
        Arena.recordOutcome_cases hrecord
      · rfl
      · exact Registry.ledgers_applyReward happly
    · rintro contest context rfl
      cases hreport
  | logPull hlog => exact .inl ⟨Registry.ledgers_logPull hlog, rfl⟩
  | applyReward happly => exact .inl ⟨Registry.ledgers_applyReward happly, rfl⟩
  | prune hcutoff =>
    refine .inl ⟨rfl, Turn.selected?_of_not_select ?_⟩
    rintro contest context rfl
    cases hcutoff
  | chargeLedger | seedLedger => cases hcommand
  | _ => exact absurd rfl hkeeps

/-! ## Ledgers and histories -/

/-- What a symbol's ledger tells of a day: if the day is not over, what was selected on it, and
nothing of days to come. -/
structure Tracks (symbol : String) (day : Day) (governor : Governor) (expected : Ledger) : Prop
    where
  day_le : ∀ ledger, governor.registry.ledgers.find? symbol = some ledger →
    ledger.day.number ≤ governor.clock.day.number
  agrees : governor.clock.day.number ≤ day.number →
    Ledger.onDay day (governor.registry.ledgers.find? symbol) = expected

namespace Tracks

variable {before after : Governor} {expected : Ledger}

theorem wait (htracks : Tracks symbol day before expected)
    (hledgers : after.registry.ledgers.find? symbol = before.registry.ledgers.find? symbol)
    (hclock : before.clock ≤ after.clock) : Tracks symbol day after expected := by
  have hday := Instant.day_mono hclock
  refine ⟨fun ledger hfound => ?_, fun hover => ?_⟩
  · rw [hledgers] at hfound
    exact Int.le_trans (htracks.day_le ledger hfound) hday
  · rw [hledgers]
    exact htracks.agrees (Int.le_trans hday hover)

/-- A charge counts towards the day of the charge. -/
theorem charge (htracks : Tracks symbol day before expected) {arm : Arm}
    (hledgers : after.registry.ledgers = before.registry.ledgers.insert symbol
      (before.registry.nextLedger symbol before.clock arm))
    (hclock : before.clock ≤ after.clock) :
    Tracks symbol day after
      (if before.clock.day = day then
        ⟨day, expected.total + 1, expected.candidates + (decide (arm.role = .candidate)).toNat⟩
      else expected) := by
  have hday := Instant.day_mono hclock
  refine ⟨fun ledger hfound => ?_, fun hover => ?_⟩
  · rw [hledgers, Table.find?_insert_self] at hfound
    cases hfound
    exact hday
  · rw [hledgers, Table.find?_insert_self]
    have hagrees := htracks.agrees (Int.le_trans hday hover)
    by_cases hsame : before.clock.day = day
    · rw [if_pos hsame, ← hagrees, ← hsame, Registry.onDay_nextLedger]
      rfl
    · -- a ledger of that day would be one of a day to come
      have hearlier : ∀ ledger, before.registry.ledgers.find? symbol = some ledger →
          ledger.day ≠ day := by
        intro ledger hfound heq
        have hpast := htracks.day_le ledger hfound
        rw [heq] at hpast
        exact hsame (congrArg Day.mk (Int.le_antisymm (Int.le_trans hday hover) hpast))
      rw [if_neg hsame, ← hagrees, Ledger.onDay_of_day_ne hearlier]
      exact if_neg hsame

end Tracks

/-- Along a history in which only selections write ledgers and time never runs backwards, ledgers
count the selections that were made. -/
theorem History.tracks {start governor : Governor} (hhistory : History start turns governor)
    (hempty : start.arena = .empty)
    (hclock : ∀ turn ∈ turns, turn.before.clock ≤ turn.after.clock)
    (hwrites : ∀ turn ∈ turns, turn.command.writesLedgers = false) (symbol : String)
    (day : Day) : Tracks symbol day governor (selectionsOn symbol day turns) := by
  induction hhistory with
  | start =>
    have hregistry : start.registry = .empty := congrArg Arena.registry hempty
    refine ⟨fun ledger hfound => ?_, fun _ => ?_⟩
    · rw [hregistry] at hfound
      cases hfound
    · rw [hregistry]
      rfl
  | @turn turns before after command answer past step ih =>
    obtain ⟨hforward, hclock⟩ := List.forall_mem_cons.mp hclock
    obtain ⟨hcommand, hwrites⟩ := List.forall_mem_cons.mp hwrites
    have htracks := ih hclock hwrites
    obtain ⟨hledgers, hselected⟩ | ⟨contest, arm, selection, -, hselected, hrole, hledgers, -⟩ :=
      (Governor.arenaStep_of_step step).1.ledgers_cases hcommand
    · rw [selectionsOn_cons_of_not_picks (by rw [Turn.picks, hselected]; rfl)]
      exact htracks.wait (by rw [hledgers]) hforward
    · by_cases hsymbol : contest.symbol = symbol
      · subst hsymbol
        have hcharged := htracks.charge hledgers hforward
        by_cases hday : before.clock.day = day
        · rw [if_pos hday] at hcharged
          rw [selectionsOn_cons_of_picks hselected rfl hday, hrole]
          exact hcharged
        · rw [if_neg hday] at hcharged
          rw [selectionsOn_cons_of_not_picks (by simp [Turn.picks, hselected, hday])]
          exact hcharged
      · rw [selectionsOn_cons_of_not_picks (by simp [Turn.picks, hselected, hsymbol])]
        refine htracks.wait ?_ hforward
        rw [hledgers, Table.find?_insert_of_ne (Ne.symm hsymbol)]

/-! ## The budget -/

/-- A step selects a candidate only where the budget lets candidates in. -/
theorem ArenaStep.admits_of_selected {governor next : Governor} {command : Command}
    {answer : Except Refusal Reply} (hstep : ArenaStep governor command answer next.arena)
    (hcommand : command.writesLedgers = false) {contest : Contest} {selection : Selection}
    (hselected : (⟨governor, command, answer, next⟩ : Turn).selected? = some (contest, selection))
    (hcandidate : selection.role = .candidate) :
    governor.settings.selection.canary.admits
      (governor.registry.ledgerOn contest.symbol governor.clock) = true := by
  obtain ⟨-, hnone⟩ | ⟨_, arm, _, harm, hsame, hrole, -⟩ := hstep.ledgers_cases hcommand
  · rw [hnone] at hselected
    cases hselected
  · rw [hselected] at hsame
    cases hsame
    obtain ⟨-, -, hbaseline⟩ := (Arena.mem_offered_iff _ _ _ _ arm).mp harm
    apply Bool.of_not_eq_false
    intro hdenied
    rw [← hrole, hcandidate] at hbaseline
    cases hbaseline hdenied

/-- A step selects a candidate only below the daily number of candidates. -/
theorem ArenaStep.candidates_lt {governor next : Governor} {command : Command}
    {answer : Except Refusal Reply} (hstep : ArenaStep governor command answer next.arena)
    (hcommand : command.writesLedgers = false)
    (hpicks : (⟨governor, command, answer, next⟩ : Turn).picksCandidate symbol day = true) :
    governor.clock.day = day ∧ (governor.registry.ledgerOn symbol governor.clock).candidates <
      governor.settings.selection.canary.maxTradesPerDay := by
  cases hselected : (⟨governor, command, answer, next⟩ : Turn).selected? with
  | none => simp [Turn.picksCandidate, hselected] at hpicks
  | some selected =>
    simp only [Turn.picksCandidate, Turn.picks, hselected, Option.any_some, Bool.and_eq_true,
      decide_eq_true_eq] at hpicks
    obtain ⟨⟨rfl, hday⟩, hcandidate⟩ := hpicks
    have hallowed := hstep.admits_of_selected hcommand hselected hcandidate
    exact ⟨hday, Settings.Canary.candidates_lt_of_admits hallowed⟩

section

variable {settings : Settings} {entropy : Seeding} {notifier : Notifier} {clock : Instant}
  {start governor : Governor}

/-- On every day, and for every symbol, at most the daily number of selections goes to
candidates; and no ledger has more candidates than selections. -/
theorem candidates_within_budget
    (hcreate : Governor.create settings entropy notifier clock = .ok start)
    (hhistory : History start turns governor)
    (hclock : ∀ turn ∈ turns, turn.before.clock ≤ turn.after.clock)
    (hwrites : ∀ turn ∈ turns, turn.command.writesLedgers = false) :
    (∀ symbol day, turns.countP (Turn.picksCandidate symbol day) ≤
        settings.selection.canary.maxTradesPerDay) ∧
      ∀ symbol, (governor.registry.ledgerOn symbol governor.clock).candidates ≤
        (governor.registry.ledgerOn symbol governor.clock).total := by
  obtain ⟨hsettings, -, hempty⟩ := Governor.create_eq_ok hcreate
  constructor
  · intro symbol day
    rw [← hsettings]
    clear hsettings hcreate
    induction hhistory with
    | start => exact Nat.zero_le _
    | @turn turns before after command answer past step ih =>
      obtain ⟨-, hpastClock⟩ := List.forall_mem_cons.mp hclock
      obtain ⟨hcommand, hpastWrites⟩ := List.forall_mem_cons.mp hwrites
      have hpast := ih hpastClock hpastWrites
      rw [List.countP_cons]
      split
      · next hpicks =>
        -- the ledger that the selection checked counts the candidates so far
        obtain ⟨rfl, hbelow⟩ :=
          (Governor.arenaStep_of_step step).1.candidates_lt hcommand hpicks
        have hledger := (past.tracks hempty hpastClock hpastWrites symbol
          before.clock.day).agrees (Int.le_refl _)
        rw [Registry.ledgerOn, hledger, past.settings_eq] at hbelow
        exact hbelow
      · exact hpast
  · intro symbol
    have hledger := (hhistory.tracks hempty hclock hwrites symbol governor.clock.day).agrees
      (Int.le_refl _)
    rw [Registry.ledgerOn, hledger]
    exact candidates_selectionsOn_le symbol governor.clock.day turns

/-- A budget of one candidate a day, spent by the first of three selections. -/
theorem candidates_within_budget_spent :
    ∃ start turns governor,
      Governor.create { selection := { policy := .ucb1, canary := { maxTradesPerDay := 1 } } } 0
        .log ⟨0⟩ = .ok start ∧
      History start turns governor ∧ (∀ turn ∈ turns, turn.before.clock ≤ turn.after.clock) ∧
      (∀ turn ∈ turns, turn.command.writesLedgers = false) ∧
      selectionsOn "BTC" ⟨0⟩ turns = ⟨⟨0⟩, 3, 1⟩ ∧
      ∀ symbol day, turns.countP (Turn.picksCandidate symbol day) ≤ 1 := by
  let contest : Contest := ⟨"BTC", "UP", .buy⟩
  let commands : List Command :=
    [.ensureArms contest [⟨.given ⟨1⟩, .candidate⟩, ⟨.given ⟨2⟩, .baseline⟩],
      .select contest .empty, .select contest .empty, .select contest .empty]
  obtain ⟨start, turns, governor, hcreate, hhistory, -, hcheck⟩ :=
    Governor.exists_history_of_replays
      { selection := { policy := .ucb1, canary := { maxTradesPerDay := 1 } } } commands
      (fun turns _ =>
        turns.all (fun turn => turn.before.clock ≤ turn.after.clock) &&
        turns.all (fun turn => turn.command.writesLedgers == false) &&
        selectionsOn "BTC" ⟨0⟩ turns == ⟨⟨0⟩, 3, 1⟩) (by decide +kernel)
  simp only [Bool.and_eq_true, List.all_eq_true, decide_eq_true_eq, beq_iff_eq] at hcheck
  obtain ⟨⟨hclock, hwrites⟩, hcount⟩ := hcheck
  exact ⟨start, turns, governor, hcreate, hhistory, hclock, hwrites, hcount,
    (candidates_within_budget hcreate hhistory hclock hwrites).1⟩

end

end ExposureControl
