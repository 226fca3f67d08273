import ExposureControl.Proofs.CounterBounds
import ExposureControl.Proofs.Selection
import ExposureControl.Proofs.WordQuotient

/-!
# The share of candidates

The budget compares the candidates' share of the day with a cap.  Where the cap is above zero, a
candidate is selected only while the share lies below it, on an empty day too.  A cap of zero is
never above the share of an empty day, and yet the first selection of a day may take a candidate.
-/

namespace ExposureControl

def Word64.largest : Nat := Word64.size - 1

def Command.SeedsWords (command : Command) : Prop :=
  ∀ symbol ledger, command = .seedLedger symbol ledger →
    ledger.total ≤ Word64.largest ∧ ledger.candidates ≤ Word64.largest

/-! ## Ledgers count in words -/

theorem Registry.LedgersWithin.chargeLedger {registry next : Registry}
    (hbefore : registry.LedgersWithin Word64.largest) {symbol : String} {candidate : Bool}
    {now : Instant} (hcharge : registry.chargeLedger symbol candidate now = .ok next) :
    next.LedgersWithin Word64.largest := by
  obtain ⟨hnext, htotal, hcandidates⟩ := Registry.chargeLedger_eq_ok_iff.mp hcharge
  have hcounted := (hbefore symbol now).2
  apply hbefore.insert (congrArg Registry.ledgers hnext)
  · exact Nat.le_sub_one_of_lt htotal
  · cases candidate with
    | false => exact hcounted
    | true => exact Nat.le_sub_one_of_lt (hcandidates rfl)

/-- One step keeps the ledgers in words: a charge without room for it is a fault. -/
theorem ArenaStep.ledgersWithin {governor next : Governor} {command : Command}
    {answer : Except Refusal Reply} (hstep : ArenaStep governor command answer next.arena)
    (hseeds : command.SeedsWords)
    (hbefore : governor.registry.LedgersWithin Word64.largest) :
    next.registry.LedgersWithin Word64.largest := by
  cases hwrites : command.writesLedgers with
  | false =>
    obtain ⟨hledgers, -⟩ | ⟨contest, arm, -, -, -, -, hledgers, htotal, hcandidates⟩ :=
      hstep.ledgers_cases hwrites
    · intro symbol now
      rw [Registry.ledgerOn, hledgers]
      exact hbefore symbol now
    · have hcounted := (hbefore contest.symbol governor.clock).2
      apply hbefore.insert hledgers
      · exact Nat.le_sub_one_of_lt htotal
      · cases hrole : arm.role with
        | baseline => simpa [Registry.nextLedger, hrole] using hcounted
        | candidate =>
          have hcharged : (governor.registry.ledgerOn contest.symbol
              governor.clock).candidates + 1 ≤ Word64.largest :=
            Nat.le_sub_one_of_lt (hcandidates hrole)
          simpa only [Registry.nextLedger, hrole, decide_true, Bool.toNat_true] using hcharged
  | true =>
    generalize harena : next.arena = arena at hstep
    rw [Governor.registry, harena]
    cases command with
    | chargeLedger symbol candidate time =>
      cases hstep with
      | chargeLedger hcharge => exact hbefore.chargeLedger hcharge
      | spared himpossible | report himpossible | prune himpossible => cases himpossible
    | seedLedger symbol ledger =>
      cases hstep with
      | seedLedger =>
        obtain ⟨htotal, hcandidates⟩ := hseeds symbol ledger rfl
        exact hbefore.insert rfl htotal hcandidates
      | spared himpossible | report himpossible | prune himpossible => cases himpossible
    | _ => cases hwrites

/-- Along every history that puts words on file, ledgers count in words. -/
theorem History.ledgersInWords {start governor : Governor} {turns : List Turn}
    (hhistory : History start turns governor) (hempty : start.arena = .empty)
    (hseeds : ∀ turn ∈ turns, turn.command.SeedsWords) :
    governor.registry.LedgersWithin Word64.largest := by
  induction hhistory with
  | start =>
    intro symbol now
    rw [Governor.registry, hempty]
    exact ⟨Nat.zero_le _, Nat.zero_le _⟩
  | turn past step ih =>
    obtain ⟨hnow, hpast⟩ := List.forall_mem_cons.mp hseeds
    exact (Governor.arenaStep_of_step step).1.ledgersWithin hnow (ih hpast)

/-! ## The share below the cap -/

/-- Where the cap is above zero and below one, the budget lets candidates in only while their share
lies below it. -/
theorem Settings.Canary.share_lt_of_admits {canary : Settings.Canary} {ledger : Ledger}
    (hlow : 0.0 < canary.maxSharePerDay) (hhigh : canary.maxSharePerDay < 1.0)
    (htotal : ledger.total ≤ Word64.largest) (hcandidates : ledger.candidates ≤ Word64.largest)
    (hadmits : canary.admits ledger = true) : ledger.share < canary.maxSharePerDay := by
  cases Nat.eq_zero_or_pos ledger.total with
  | inl hempty =>
    rw [Ledger.share, if_pos hempty]
    exact hlow
  | inr hsome =>
    have hbelow : ¬ canary.maxSharePerDay ≤ ledger.share := by
      rw [admits] at hadmits
      split at hadmits
      · cases hadmits
      · intro hreached
        simp [hhigh, hsome, hreached] at hadmits
    have hpositive : (0.0 : Float).toModel.unpack.lt canary.maxSharePerDay.toModel.unpack = true :=
      of_decide_eq_true hlow
    have hword : ∀ {count}, count ≤ Word64.largest → count < Word64.size := fun hle =>
      Nat.lt_of_le_of_lt hle (by decide)
    have hshare := Binary64.sign?_div_ofNat (hword hcandidates) hsome (hword htotal)
    rw [Ledger.share, if_neg (Nat.ne_of_gt hsome)] at hbelow ⊢
    exact Binary64.lt_of_not_le (Binary64.sign?_of_zero_lt hpositive) hshare hbelow

/-- On a day without selections the budget lets candidates in, whatever the cap, unless it lets in
none at all. -/
theorem Settings.Canary.admits_blank {canary : Settings.Canary} (day : Day)
    (hsome : canary.maxTradesPerDay ≠ 0) : canary.admits (.blank day) = true := by
  have hcount : ¬ (Ledger.blank day).candidates ≥ canary.maxTradesPerDay := by
    simpa [Ledger.blank] using hsome
  rw [admits, if_neg hcount]
  simp [Ledger.blank]

/-! ## Selections of candidates -/

theorem Turn.writesLedgers_of_selected {turn : Turn} {selected : Contest × Selection}
    (hselected : turn.selected? = some selected) : turn.command.writesLedgers = false := by
  apply Bool.of_not_eq_true
  intro hwrites
  have hnone : turn.selected? = none := by
    apply Turn.selected?_of_not_select
    intro contest context hcommand
    rw [hcommand] at hwrites
    cases hwrites
  rw [hnone] at hselected
  cases hselected

/-- A step selects nothing where selection is disabled. -/
theorem ArenaStep.enabled_of_selected {governor next : Governor} {command : Command}
    {answer : Except Refusal Reply} (hstep : ArenaStep governor command answer next.arena)
    {selected : Contest × Selection}
    (hselected : (⟨governor, command, answer, next⟩ : Turn).selected? = some selected) :
    governor.settings.selection.enabled = true := by
  obtain ⟨context, hselect⟩ := hstep.select_of_selected hselected
  apply Bool.of_not_eq_false
  intro hdisabled
  rw [Arena.select_of_disabled hdisabled] at hselect
  have hanswer := (Prod.ext_iff.mp (Except.ok.inj hselect)).2
  cases hanswer

theorem Registry.holds_first_iff (arm other : Arm) (contest : Contest) :
    (empty.restoreArm arm).Holds contest other ↔ other = arm ∧ arm.contest = contest := by
  constructor
  · rintro ⟨hfound, hcontest⟩
    rw [restoreArm, Table.find?_insert] at hfound
    split at hfound
    · obtain rfl := Option.some.inj hfound
      exact ⟨rfl, hcontest⟩
    · cases hfound
  · rintro ⟨rfl, hcontest⟩
    exact ⟨Table.find?_insert_self _ _ _, hcontest⟩

theorem Registry.hasRoom_first {arm : Arm} (hnew : arm.stats.pulls = 0) (symbol : String)
    (now : Instant) : (empty.restoreArm arm).HasRoom symbol now arm where
  pulls := by
    rw [hnew]
    decide
  total := (by decide : 0 + 1 < Word64.size)
  candidates _ := (by decide : 0 + 1 < Word64.size)

/-- A new governor can be brought to select a candidate on an empty day, unless selection is
disabled or lets no candidates in at all. -/
theorem exists_candidate_on_blank_day {start : Governor} (hempty : start.arena = .empty)
    (henabled : start.settings.selection.enabled = true)
    (hsome : start.settings.selection.canary.maxTradesPerDay ≠ 0) :
    ∃ turns governor, History start turns governor ∧
      (∀ turn ∈ turns, turn.command.SeedsWords) ∧
      ∃ turn ∈ turns, ∃ contest selection,
        turn.selected? = some (contest, selection) ∧ selection.role = .candidate ∧
        turn.before.registry.ledgerOn contest.symbol turn.before.clock =
          .blank turn.before.clock.day := by
  let contest : Contest := ⟨"BTC", "UP", .buy⟩
  let arm : Arm := .create (.given ⟨1⟩) contest ⟨.given ⟨9⟩, .candidate⟩ start.clock
  let ready : Governor :=
    { start with arena := { start.arena with registry := start.registry.restoreArm arm } }
  have hrestore : start.step (.restoreArm arm) = .ok (ready, .ok .done) := rfl
  have hregistry : ready.registry = Registry.empty.restoreArm arm :=
    congrArg (fun arena => arena.registry.restoreArm arm) hempty
  have hsound : ready.registry.Sound := by
    rw [hregistry]
    exact Registry.sound_restoreArm Registry.sound_empty ⟨nofun, nofun⟩
  have hblank : ready.registry.ledgerOn contest.symbol ready.clock = .blank ready.clock.day := by
    rw [hregistry]
    rfl
  have hoffered : ready.Offers contest arm := by
    refine ⟨?_, rfl, fun hdenied => ?_⟩
    · rw [hregistry]
      exact (Registry.holds_first_iff arm arm contest).mpr ⟨rfl, rfl⟩
    · have hadmits := Settings.Canary.admits_blank ready.clock.day hsome
      rw [← hblank] at hadmits
      cases hdenied.symm.trans hadmits
  have hopen : ¬ ready.Exhausted contest := fun hexhausted =>
    (Governor.exhausted_iff_not_offers ready contest).mp hexhausted arm hoffered
  obtain ⟨chosen, hoffers, hcases⟩ :=
    Governor.select_of_offers hsound henabled contest .empty hopen
  obtain rfl : chosen = arm := by
    have hheld := hoffers.held
    rw [hregistry] at hheld
    exact ((Registry.holds_first_iff arm chosen contest).mp hheld).1
  obtain ⟨-, selection, governor, hselect, heffect⟩ | ⟨hfull, -⟩ := hcases
  · have hstep : ready.step (.select contest .empty) =
        .ok (governor, .ok (.selection selection)) := by
      simp only [Governor.step, hselect]
      rfl
    refine ⟨_, governor, .turn (.turn .start hrestore) hstep, ?_, _, List.mem_cons_self, contest,
      selection, rfl, ?_, hblank⟩
    · intro turn hturn symbol ledger hcommand
      simp only [List.mem_cons, List.not_mem_nil, or_false] at hturn
      obtain rfl | rfl := hturn <;> cases hcommand
    · exact congrArg Selection.role heffect.answer
  · rw [hregistry] at hfull
    exact absurd (Registry.hasRoom_first rfl _ _) hfull

/-- A selection of a candidate finds the candidates' share of the day below the cap, in every
history, exactly where the cap is above zero or no candidate is ever selected: because selection
is disabled, or because the daily number of candidates is zero. -/
theorem candidates_below_share_iff {settings : Settings} {entropy : Seeding} {notifier : Notifier}
    {clock : Instant} {start : Governor}
    (hcreate : Governor.create settings entropy notifier clock = .ok start)
    (hcap : settings.selection.canary.maxSharePerDay < 1.0) :
    (∀ turns governor, History start turns governor →
      (∀ turn ∈ turns, turn.command.SeedsWords) →
      ∀ turn ∈ turns, ∀ contest selection, turn.selected? = some (contest, selection) →
        selection.role = .candidate →
        (turn.before.registry.ledgerOn contest.symbol turn.before.clock).share <
          settings.selection.canary.maxSharePerDay) ↔
      0.0 < settings.selection.canary.maxSharePerDay ∨
        settings.selection.canary.maxTradesPerDay = 0 ∨ settings.selection.enabled = false := by
  obtain ⟨hsettings, -, hempty⟩ := Governor.create_eq_ok hcreate
  rw [← hsettings] at hcap ⊢
  constructor
  · intro hbelow
    by_contra hnot
    obtain ⟨hzero, hsome, henabled⟩ := not_or.mp hnot |>.imp_right not_or.mp
    obtain ⟨turns, governor, hhistory, hseeds, turn, hturn, contest, selection, hselected,
      hcandidate, hblank⟩ := exists_candidate_on_blank_day hempty
        (Bool.eq_true_of_not_eq_false henabled) hsome
    have hshare := hbelow turns governor hhistory hseeds turn hturn contest selection hselected
      hcandidate
    rw [hblank] at hshare
    exact hzero hshare
  · intro hcondition turns governor hhistory hseeds turn hturn contest selection hselected
      hcandidate
    obtain ⟨past, hpast, hearlier, hstep⟩ := hhistory.exists_past hturn
    have hstep := (Governor.arenaStep_of_step hstep).1
    have hadmits := hstep.admits_of_selected (Turn.writesLedgers_of_selected hselected) hselected
      hcandidate
    have hwords := hpast.ledgersInWords hempty fun earlier hmem => hseeds earlier (hearlier hmem)
    rw [hpast.settings_eq] at hadmits
    obtain hpositive | hnone | hdisabled := hcondition
    · obtain ⟨htotal, hcandidates⟩ := hwords contest.symbol turn.before.clock
      exact Settings.Canary.share_lt_of_admits hpositive hcap htotal hcandidates hadmits
    · have hbelow := Settings.Canary.candidates_lt_of_admits hadmits
      rw [hnone] at hbelow
      exact absurd hbelow (Nat.not_lt_zero _)
    · have henabled := hstep.enabled_of_selected hselected
      rw [hpast.settings_eq, hdisabled] at henabled
      cases henabled

/-- Under a cap of a quarter, a candidate is selected with none of the day's selections spent on
candidates. -/
theorem candidates_below_share_quarter :
    ∃ start turns governor,
      Governor.create { selection := { policy := .ucb1 } } 0 .log ⟨0⟩ = .ok start ∧
      (0.25 : Float) < 1.0 ∧ History start turns governor ∧
      (∀ turn ∈ turns, turn.command.SeedsWords) ∧
      ∃ turn ∈ turns, ∃ contest selection, turn.selected? = some (contest, selection) ∧
        selection.role = .candidate ∧
        (turn.before.registry.ledgerOn contest.symbol turn.before.clock).share < 0.25 := by
  let contest : Contest := ⟨"BTC", "UP", .buy⟩
  let commands : List Command :=
    [.ensureArms contest [⟨.given ⟨1⟩, .candidate⟩], .select contest .empty]
  obtain ⟨start, turns, governor, hcreate, hhistory, hcommands, hcheck⟩ :=
    Governor.exists_history_of_replays { selection := { policy := .ucb1 } } commands
      (fun turns _ => turns.any fun turn =>
        turn.selected?.any fun selected => selected.2.role = .candidate) (by decide +kernel)
  have hcap : (0.25 : Float) < 1.0 := by decide
  have hseeds : ∀ turn ∈ turns, turn.command.SeedsWords := by
    intro turn hturn symbol ledger hcommand
    have hmem := Turn.command_mem hcommands hturn
    rw [hcommand] at hmem
    simp [commands] at hmem
  obtain ⟨turn, hturn, hpicks⟩ := List.any_eq_true.mp hcheck
  cases hselected : turn.selected? with
  | none => simp [hselected] at hpicks
  | some selected =>
    obtain ⟨selectedIn, selection⟩ := selected
    have hcandidate : selection.role = .candidate := by simpa [hselected] using hpicks
    have hshare := (candidates_below_share_iff hcreate hcap).mpr (.inl (by decide)) turns governor
      hhistory hseeds turn hturn selectedIn selection hselected hcandidate
    exact ⟨start, turns, governor, hcreate, hcap, hhistory, hseeds, turn, hturn, selectedIn,
      selection, hselected, hcandidate, hshare⟩

def Settings.withoutShare : Settings :=
  { selection := { policy := .ucb1, canary := { maxSharePerDay := 0.0 } } }

/-- A cap of zero is valid, and yet the first selection of a day takes a candidate. -/
theorem zero_cap_admits_candidate :
    Settings.withoutShare.Valid ∧
      Settings.withoutShare.selection.canary.maxSharePerDay < 1.0 ∧
      ∃ start turns governor, Governor.create .withoutShare 0 .log ⟨0⟩ = .ok start ∧
        History start turns governor ∧
        ∃ turn ∈ turns, ∃ contest selection, turn.selected? = some (contest, selection) ∧
          selection.role = .candidate ∧
          ¬ (turn.before.registry.ledgerOn contest.symbol turn.before.clock).share <
            Settings.withoutShare.selection.canary.maxSharePerDay := by
  let contest : Contest := ⟨"BTC", "UP", .buy⟩
  let commands : List Command :=
    [.ensureArms contest [⟨.given ⟨1⟩, .candidate⟩], .select contest .empty]
  have hvalid : Settings.withoutShare.Valid := by decide
  have hcap : Settings.withoutShare.selection.canary.maxSharePerDay < 1.0 := by decide
  obtain ⟨start, turns, governor, hcreate, hhistory, -, hcheck⟩ :=
    Governor.exists_history_of_replays .withoutShare commands
      (fun turns _ => turns.any fun turn => turn.selected?.any fun selected =>
        selected.2.role = .candidate &&
          !decide ((turn.before.registry.ledgerOn selected.1.symbol turn.before.clock).share <
            Settings.withoutShare.selection.canary.maxSharePerDay)) (by decide +kernel)
  obtain ⟨turn, hturn, hpicks⟩ := List.any_eq_true.mp hcheck
  cases hselected : turn.selected? with
  | none => simp [hselected] at hpicks
  | some selected =>
    obtain ⟨selectedIn, selection⟩ := selected
    simp only [hselected, Option.any_some, Bool.and_eq_true, Bool.not_eq_true',
      decide_eq_true_eq, decide_eq_false_iff_not] at hpicks
    exact ⟨hvalid, hcap, start, turns, governor, hcreate, hhistory, turn, hturn, selectedIn,
      selection, hselected, hpicks⟩

end ExposureControl
