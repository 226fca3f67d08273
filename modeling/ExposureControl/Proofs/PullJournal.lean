import ExposureControl.Proofs.ArmOrigin
import ExposureControl.Proofs.Filing

/-!
# A journal of pulls

The journal has a line for every pull that was ever logged, in the order of logging.  No line is
ever taken out: an outcome is written into the line of its pull, unless that has one, and a prune
strikes lines out.  Every turn changes the log of pulls as its entry in the journal says.
-/

namespace ExposureControl

/-- A line of the journal, with whether its pull is still on record. -/
structure JournalLine where
  pull : Pull
  kept : Bool

/-- What a turn writes into the journal. -/
inductive JournalEntry
  | logged (pull : Pull)
  /-- The pull of a serial number has an outcome now. -/
  | resolved (serial : Nat) (outcome : Outcome)
  /-- Pulls that were logged before the cutoff are struck out. -/
  | pruned (cutoff : Instant)

/-- A pull after an outcome came in for the pull of a serial number.  The first outcome stays. -/
def Pull.settle (serial : Nat) (outcome : Outcome) (pull : Pull) : Pull :=
  if pull.serial = serial then { pull with outcome := pull.outcome.or (some outcome) } else pull

def JournalEntry.write (lines : List JournalLine) : JournalEntry → List JournalLine
  | .logged pull => lines ++ [⟨pull, true⟩]
  | .resolved serial outcome =>
    lines.map fun line => { line with pull := line.pull.settle serial outcome }
  | .pruned cutoff =>
    lines.map fun line => { line with kept := line.kept && !decide (line.pull.loggedAt < cutoff) }

/-- The pulls of certain contests that were not struck out, in their current form. -/
def keptPulls (keeps : Contest → Bool) (lines : List JournalLine) : List Pull :=
  (lines.filter fun line => line.kept && keeps line.pull.contest).map JournalLine.pull

/-- Whether a command logs a pull where it succeeds. -/
def Command.logs : Command → Bool
  | .select .. | .logPull .. => true
  | _ => false

/-- The decision that a command resolves, if it can, and the outcome that it has for it. -/
def Command.resolves? (settings : Settings) : Command → Option (DecisionId × Outcome)
  | .applyReward decision outcome _ _ => some (decision, outcome)
  | command => (command.report? settings).bind fun report =>
      report.2.usable?.map fun outcome => (report.1, outcome)

namespace Turn

/-- The pull that a turn logged, if this is to have a serial number. -/
def logged? (serial : Nat) (turn : Turn) : Option Pull :=
  match turn.command, turn.answer with
  | .select _ context, .ok (.selection selection) =>
    turn.before.registry.pullFor? serial selection.arm selection.decision context
      turn.before.clock
  | .logPull arm decision context _ time, .ok _ =>
    turn.before.registry.pullFor? serial arm decision context time
  | _, _ => none

/-- The serial number of the pull with which a turn answered a report, and the outcome that was
reported. -/
def resolved? (turn : Turn) : Option (Nat × Outcome) :=
  match turn.answer with
  | .ok (.pull (some pull)) =>
    (turn.command.resolves? turn.before.settings).map fun report => (pull.serial, report.2)
  | _ => none

/-- What a turn writes into the journal, where the next pull is to have a serial number. -/
def written? (serial : Nat) (turn : Turn) : Option JournalEntry :=
  ((turn.logged? serial).map JournalEntry.logged).or
    ((turn.resolved?.map fun resolved => .resolved resolved.1 resolved.2).or
      ((turn.command.pullCutoff? turn.before.settings).map JournalEntry.pruned))

/-- The pull that a turn answered as newly logged. -/
def issued? (turn : Turn) : Option Pull :=
  match turn.command, turn.answer with
  | .logPull .., .ok (.pull pull) => pull
  | _, _ => none

end Turn

/-- The lines after a turn, whose pull is numbered by its line if it logs one. -/
def Turn.write (turn : Turn) (lines : List JournalLine) : List JournalLine :=
  match turn.written? (lines.length + 1) with
  | none => lines
  | some entry => entry.write lines

/-- The journal of turns, which are given newest first. -/
def journal (turns : List Turn) : List JournalLine := turns.foldr Turn.write []

variable {lines : List JournalLine} {keeps : Contest → Bool} {serial : Nat} {outcome : Outcome}
  {pull : Pull}

/-! ## What is kept -/

namespace Pull

@[simp] theorem serial_settle : (pull.settle serial outcome).serial = pull.serial := by
  unfold settle
  split <;> rfl

@[simp] theorem arm_settle : (pull.settle serial outcome).arm = pull.arm := by
  unfold settle
  split <;> rfl

@[simp] theorem decision_settle : (pull.settle serial outcome).decision = pull.decision := by
  unfold settle
  split <;> rfl

@[simp] theorem contest_settle : (pull.settle serial outcome).contest = pull.contest := by
  unfold settle
  split <;> rfl

theorem settle_of_ne (hne : pull.serial ≠ serial) : pull.settle serial outcome = pull :=
  if_neg hne

theorem settle_self :
    pull.settle pull.serial outcome = { pull with outcome := pull.outcome.or (some outcome) } :=
  if_pos rfl

theorem settle_of_resolved (hresolved : pull.resolved = true) :
    pull.settle serial outcome = pull := by
  obtain ⟨first, hfirst⟩ := Option.isSome_iff_exists.mp hresolved
  unfold settle
  split
  · obtain ⟨⟩ := pull
    dsimp only at hfirst
    rw [hfirst]
    rfl
  · rfl

theorem settle_of_open (hopen : pull.resolved = false) :
    pull.settle pull.serial outcome = { pull with outcome := some outcome } := by
  rw [settle_self, Option.isSome_eq_false_iff.mp hopen |> Option.isNone_iff_eq_none.mp]
  rfl

end Pull

theorem keptPulls_logged :
    keptPulls keeps ((JournalEntry.logged pull).write lines) =
      if keeps pull.contest then keptPulls keeps lines ++ [pull] else keptPulls keeps lines := by
  cases hkeeps : keeps pull.contest with
  | true => simp [keptPulls, JournalEntry.write, hkeeps]
  | false => simp [keptPulls, JournalEntry.write, hkeeps]

theorem keptPulls_resolved :
    keptPulls keeps ((JournalEntry.resolved serial outcome).write lines) =
      (keptPulls keeps lines).map (Pull.settle serial outcome) := by
  simp only [keptPulls, JournalEntry.write, List.filter_map, List.map_map]
  congr 1
  refine List.filter_congr fun line _ => ?_
  simp only [Function.comp_apply, Pull.contest_settle]

theorem keptPulls_pruned (cutoff : Instant) :
    keptPulls keeps ((JournalEntry.pruned cutoff).write lines) =
      (keptPulls keeps lines).filter fun pull => !decide (pull.loggedAt < cutoff) := by
  simp only [keptPulls, JournalEntry.write, List.filter_map, List.map_map, List.filter_filter]
  congr 1
  refine List.filter_congr fun line _ => ?_
  simp only [Function.comp_apply]
  ac_rfl

theorem filter_keptPulls (also : Contest → Bool) :
    (keptPulls keeps lines).filter (fun pull => also pull.contest) =
      keptPulls (fun contest => keeps contest && also contest) lines := by
  simp only [keptPulls, List.filter_map, List.filter_filter]
  congr 1
  refine List.filter_congr fun line _ => ?_
  simp only [Function.comp_apply]
  ac_rfl

theorem keptPulls_sublist : (keptPulls keeps lines).Sublist (lines.map JournalLine.pull) :=
  List.filter_sublist.map JournalLine.pull

theorem mem_keptPulls_iff :
    pull ∈ keptPulls keeps lines ↔ ⟨pull, true⟩ ∈ lines ∧ keeps pull.contest = true := by
  simp only [keptPulls, List.mem_map, List.mem_filter, Bool.and_eq_true]
  constructor
  · rintro ⟨⟨found, kept⟩, ⟨hline, rfl, hkeeps⟩, rfl⟩
    exact ⟨hline, hkeeps⟩
  · rintro ⟨hline, hkeeps⟩
    exact ⟨_, ⟨hline, rfl, hkeeps⟩, rfl⟩

theorem map_settle_eq_self {pulls : List Pull}
    (hresolved : ∀ pull ∈ pulls, pull.serial = serial → pull.resolved = true) :
    pulls.map (Pull.settle serial outcome) = pulls := by
  refine (List.map_congr_left fun pull hpull => ?_).trans (List.map_id pulls)
  by_cases hserial : pull.serial = serial
  · exact Pull.settle_of_resolved (hresolved pull hpull hserial)
  · exact Pull.settle_of_ne hserial

/-- Where no two pulls have a serial number in common, resolving the first pull of a decision is
settling the pull of its serial number. -/
theorem map_settle_of_find? {pulls : List Pull} {decision : DecisionId}
    (hdistinct : pulls.Pairwise fun older newer => older.serial < newer.serial)
    (hfound : pulls.find? (fun other => other.decision = decision) = some pull)
    (hopen : pull.resolved = false) :
    pulls.map (Pull.settle pull.serial outcome) =
      Registry.resolveIn decision { pull with outcome := some outcome } pulls := by
  induction pulls with
  | nil => cases hfound
  | cons first rest ih =>
    obtain ⟨hfirst, hrest⟩ := List.pairwise_cons.mp hdistinct
    by_cases hdecision : first.decision = decision
    · rw [List.find?_cons_of_pos (by simpa using hdecision)] at hfound
      obtain rfl := Option.some.inj hfound
      have hlater : rest.map (Pull.settle first.serial outcome) = rest :=
        map_settle_eq_self fun later hlater hserial =>
          absurd hserial (Nat.ne_of_gt (hfirst later hlater))
      rw [List.map_cons, hlater, Pull.settle_of_open hopen, Registry.resolveIn, if_pos hdecision]
    · rw [List.find?_cons_of_neg (by simpa using hdecision)] at hfound
      have hne := Nat.ne_of_lt (hfirst pull (List.mem_of_find?_eq_some hfound))
      rw [List.map_cons, Pull.settle_of_ne hne, ih hrest hfound, Registry.resolveIn,
        if_neg hdecision]

/-! ## Numbers of lines -/

namespace JournalEntry

theorem serials_resolved :
    ((resolved serial outcome).write lines).map (fun line => line.pull.serial) =
      lines.map fun line => line.pull.serial := by
  simp [write]

theorem serials_pruned (cutoff : Instant) :
    ((pruned cutoff).write lines).map (fun line => line.pull.serial) =
      lines.map fun line => line.pull.serial := by
  simp [write]

theorem serials_prefix (entry : JournalEntry) :
    (lines.map fun line => line.pull.serial) <+:
      (entry.write lines).map fun line => line.pull.serial := by
  cases entry with
  | logged pull =>
    rw [write, List.map_append]
    exact List.prefix_append _ _
  | resolved serial outcome => exact ⟨[], by rw [List.append_nil, serials_resolved]⟩
  | pruned cutoff => exact ⟨[], by rw [List.append_nil, serials_pruned]⟩

end JournalEntry

namespace Turn

variable {turn : Turn}

theorem write_of_none (hentry : turn.written? (lines.length + 1) = none) :
    turn.write lines = lines := by
  rw [write, hentry]

theorem write_of_some {entry : JournalEntry}
    (hentry : turn.written? (lines.length + 1) = some entry) :
    turn.write lines = entry.write lines := by
  rw [write, hentry]

theorem serials_prefix (turn : Turn) :
    (lines.map fun line => line.pull.serial) <+:
      (turn.write lines).map fun line => line.pull.serial := by
  cases hentry : turn.written? (lines.length + 1) with
  | none => exact ⟨[], by rw [List.append_nil, write_of_none hentry]⟩
  | some entry =>
    rw [write_of_some hentry]
    exact entry.serials_prefix

end Turn

/-! ## Changes of the log -/

namespace Registry

variable {before after : Registry}

/-- Two registries with the same log. -/
structure SameLog (before after : Registry) : Prop where
  historyOf : ∀ symbol, after.historyOf symbol = before.historyOf symbol
  pullsLogged : after.pullsLogged = before.pullsLogged

theorem SameLog.refl (registry : Registry) : SameLog registry registry := ⟨fun _ => rfl, rfl⟩

theorem SameLog.ofArms (hchanged : ∃ arms, after = { before with arms }) :
    SameLog before after := by
  obtain ⟨arms, rfl⟩ := hchanged
  exact ⟨fun _ => rfl, rfl⟩

theorem isSome_ensureArms (contest : Contest) (offers : List Offer) (now : Instant)
    {id : ObjectId} (hfound : (before.arms.find? id).isSome = true) :
    ((before.ensureArms contest offers now).1.arms.find? id).isSome = true := by
  have hsettled : ∀ opened : Registry, (opened.arms.find? id).isSome = true →
      ((offers.foldl (settleOffer contest now) opened).arms.find? id).isSome = true := by
    induction offers with
    | nil => exact fun _ hopened => hopened
    | cons offer rest ih =>
      intro opened hopened
      apply ih
      unfold settleOffer
      split
      · rw [createArm, Table.find?_insert]
        split
        · rfl
        · exact hopened
      · next arm _ =>
        split
        · exact hopened
        · rw [changeArm, Table.find?_modify]
          split
          · next heq => rwa [← heq, Option.isSome_map]
          · exact hopened
  exact hsettled _ hfound

end Registry

theorem RosterStep.isSome {before after : Registry} {now : Instant} {command : Command}
    (hstep : RosterStep before now command after) {id : ObjectId}
    (hfound : (before.arms.find? id).isSome = true) : (after.arms.find? id).isSome = true := by
  obtain hsame | ⟨contest, offers, -, rfl⟩ | ⟨arm, -, rfl⟩ := hstep.identity_cases
  · rwa [← Option.isSome_map, hsame.arms id, Option.isSome_map]
  · exact Registry.isSome_ensureArms contest offers now hfound
  · rw [Registry.restoreArm, Table.find?_insert]
    split
    · rfl
    · exact hfound

/-! ## What commands write -/

namespace Command

variable {settings : Settings} {command : Command} {decision : DecisionId}

theorem writes_of_spares (hspared : command.sparesArena = true) :
    command.logs = false ∧ command.resolves? settings = none ∧
      command.pullCutoff? settings = none := by
  cases command with
  | advance | setClock | submit | fill | registerShadow | priceTick | restorePosition
  | reportLive | reportShadow | bookLive | recordTradeResult | resetMonitor | setKillSwitch
  | setMode | clearAlerts => exact ⟨rfl, rfl, rfl⟩
  | _ => cases hspared

theorem writes_of_report (hreport : command.report? settings = some (decision, outcome)) :
    command.logs = false ∧ command.pullCutoff? settings = none ∧
      command.resolves? settings = outcome.usable?.map fun usable => (decision, usable) := by
  cases command with
  | recordOutcome | recordTrade =>
    exact ⟨rfl, rfl, by simp only [resolves?, hreport, Option.bind_some]⟩
  | _ => cases hreport

theorem logs_of_resolves (hresolves : command.resolves? settings = some (decision, outcome)) :
    command.logs = false := by
  cases command with
  | applyReward | recordOutcome | recordTrade => rfl
  | _ => cases hresolves

theorem writes_of_cutoff {cutoff : Instant}
    (hcutoff : command.pullCutoff? settings = some cutoff) :
    command.logs = false ∧ command.resolves? settings = none := by
  cases command with
  | prunePulls | pruneExpired => exact ⟨rfl, rfl⟩
  | _ => cases hcutoff

end Command

namespace Turn

variable {turn : Turn}

theorem issued?_of_not_logs (hlogs : turn.command.logs = false) : turn.issued? = none := by
  obtain ⟨before, command, answer, after⟩ := turn
  cases command with
  | select | logPull => cases hlogs
  | _ => rfl

theorem logged?_of_not_logs (hlogs : turn.command.logs = false) :
    turn.logged? serial = none := by
  obtain ⟨before, command, answer, after⟩ := turn
  cases command with
  | select | logPull => cases hlogs
  | _ => rfl

theorem resolved?_of_not_resolves
    (hresolves : turn.command.resolves? turn.before.settings = none) : turn.resolved? = none := by
  unfold resolved?
  split
  · rw [hresolves, Option.map_none]
  · rfl

theorem written?_of_logged (hlogged : turn.logged? serial = some pull) :
    turn.written? serial = some (.logged pull) := by
  rw [written?, hlogged]
  rfl

/-- A turn that answers with a pull that it resolves writes the outcome into the line of the
pull. -/
theorem written?_of_resolves {decision : DecisionId}
    (hresolves : turn.command.resolves? turn.before.settings = some (decision, outcome))
    (hanswer : turn.answer = .ok (.pull (some pull))) :
    turn.written? serial = some (.resolved pull.serial outcome) := by
  rw [written?, logged?_of_not_logs (Command.logs_of_resolves hresolves)]
  simp only [resolved?, hanswer, hresolves, Option.map_none, Option.map_some, Option.none_or,
    Option.some_or]

theorem written?_eq_none (hlogs : turn.command.logs = false) (hresolved : turn.resolved? = none)
    (hcutoff : turn.command.pullCutoff? turn.before.settings = none) :
    turn.written? serial = none := by
  rw [written?, logged?_of_not_logs hlogs, hresolved, hcutoff]
  rfl

theorem written?_of_cutoff {cutoff : Instant}
    (hcutoff : turn.command.pullCutoff? turn.before.settings = some cutoff) :
    turn.written? serial = some (.pruned cutoff) := by
  obtain ⟨hlogs, hresolves⟩ := Command.writes_of_cutoff hcutoff
  rw [written?, logged?_of_not_logs hlogs, resolved?_of_not_resolves hresolves, hcutoff]
  rfl

end Turn

/-! ## Steps -/

/-- What a turn does to the log as it writes its entry into the journal.  A pull that is resolved
already is answered as it is, and so is not told apart from one that is resolved now. -/
inductive LogStep (turn : Turn) : Prop
  | kept (hentry : turn.written? (turn.before.registry.pullsLogged + 1) = none)
      (hissued : turn.issued? = none)
      (hsame : turn.before.registry.SameLog turn.after.registry)
  | logged {pull : Pull}
      (hentry : turn.written? (turn.before.registry.pullsLogged + 1) = some (.logged pull))
      (hissued : ∀ issued, turn.issued? = some issued → issued = pull)
      (hserial : pull.serial = turn.before.registry.pullsLogged + 1)
      (harm : (turn.before.registry.arms.find? pull.arm).isSome = true)
      (hadds : turn.before.registry.AddsPull pull turn.after.registry)
  | resolved {decision : DecisionId} {outcome : Outcome} {symbol : String} {pull : Pull}
      (hcommand : turn.command.resolves? turn.before.settings = some (decision, outcome))
      (hanswer : turn.answer = .ok (.pull (some (pull.settle pull.serial outcome))))
      (hlocated : turn.before.registry.locate? decision = some (symbol, pull))
      (hlog : pull.resolved = true ∧ turn.before.registry.SameLog turn.after.registry ∨
        pull.resolved = false ∧
          (turn.before.registry.withOutcome symbol { pull with outcome := some outcome }).SameLog
            turn.after.registry)
  | pruned {cutoff : Instant}
      (hentry : turn.written? (turn.before.registry.pullsLogged + 1) = some (.pruned cutoff))
      (hissued : turn.issued? = none)
      (hpruned : turn.after.registry = (turn.before.registry.prunePulls cutoff).1)

/-- A reward for a decision is refused without effect on the log, or resolves the pull of the
decision, as long as the arms of all pulls are on record. -/
theorem Registry.settles_of_applyReward {before after : Registry} {decision : DecisionId}
    {halfLife : Span} {now : Instant} {answer : Except Refusal Pull}
    (harmed : ∀ symbol, ∀ pull ∈ before.historyOf symbol,
      (before.arms.find? pull.arm).isSome = true)
    (happly : before.applyReward decision outcome halfLife now = .ok (after, answer)) :
    (∃ refusal, answer = .error refusal) ∧ after = before ∨
      ∃ symbol pull, answer = .ok (pull.settle pull.serial outcome) ∧
        before.locate? decision = some (symbol, pull) ∧
        (pull.resolved = true ∧ SameLog before after ∨
          pull.resolved = false ∧
            (before.withOutcome symbol { pull with outcome := some outcome }).SameLog after) := by
  obtain ⟨-, rfl, rfl⟩ | ⟨symbol, pull, hlocated, ⟨hresolved, rfl, rfl⟩ |
    ⟨-, hmissing, -⟩ | ⟨hopen, arm, stats, -, -, rfl, rfl⟩⟩ := applyReward_cases happly
  · exact .inl ⟨⟨_, rfl⟩, rfl⟩
  · refine .inr ⟨symbol, pull, ?_, hlocated, .inl ⟨hresolved, .refl _⟩⟩
    rw [Pull.settle_of_resolved hresolved]
  · -- an outcome without an arm to credit would be kept in the history but refused
    have hpull := List.mem_of_find?_eq_some
      ((locate?_eq_some_iff decision symbol pull).mp hlocated).2
    have hfound := harmed symbol pull hpull
    rw [hmissing] at hfound
    cases hfound
  · refine .inr ⟨symbol, pull, ?_, hlocated, .inr ⟨hopen, fun _ => rfl, rfl⟩⟩
    rw [Pull.settle_of_open hopen]

/-- Every turn changes the log as its entry in the journal says, as long as the arms of all pulls
are on record. -/
theorem ArenaStep.logStep {governor next : Governor} {command : Command}
    {answer : Except Refusal Reply}
    (hstep : ArenaStep governor command answer next.arena)
    (harmed : ∀ symbol, ∀ pull ∈ governor.registry.historyOf symbol,
      (governor.registry.arms.find? pull.arm).isSome = true) :
    LogStep ⟨governor, command, answer, next⟩ := by
  obtain ⟨settings, seeding, clock, arena, costs, shadow, monitor, gate, notifier⟩ := next
  dsimp only at hstep
  cases hstep with
  | spared hspared =>
    obtain ⟨hlogs, hresolves, hcutoff⟩ := Command.writes_of_spares hspared
    exact .kept (Turn.written?_eq_none hlogs (Turn.resolved?_of_not_resolves hresolves) hcutoff)
      (Turn.issued?_of_not_logs hlogs) (.refl _)
  | ensureArms contest offers =>
    exact .kept rfl rfl ⟨(Registry.SameRecords.ensureArms contest offers _ _).historyOf,
      Registry.pullsLogged_ensureArms contest offers _ _⟩
  | restoreArm arm => exact .kept rfl rfl ⟨fun _ => rfl, rfl⟩
  | setStatus id status =>
    exact .kept (Turn.written?_eq_none rfl (Turn.resolved?_of_not_resolves rfl) rfl) rfl
      (.ofArms (Registry.exists_setStatus id status _ _))
  | setPresetStatus preset status =>
    exact .kept (Turn.written?_eq_none rfl (Turn.resolved?_of_not_resolves rfl) rfl) rfl
      (.ofArms (Registry.exists_setPresetStatus preset status _ _))
  | resetArms contest =>
    exact .kept rfl rfl (.ofArms (Registry.exists_resetStats contest _ _))
  | select hselect =>
    obtain ⟨⟨refusal, rfl⟩, hsame⟩ | ⟨selection, pull, rfl, hpull, hadds⟩ :=
      Arena.adds_of_select hselect
    · exact .kept rfl rfl ⟨fun symbol => congrArg (·.historyOf symbol) hsame,
        congrArg Registry.pullsLogged hsame⟩
    · obtain ⟨hserial, -, harm⟩ := Registry.pullFor?_eq_some hpull
      exact .logged (Turn.written?_of_logged hpull) nofun hserial harm hadds
  | report hreport hrecord =>
    obtain ⟨hlogs, hcutoff, hresolves⟩ := Command.writes_of_report hreport
    obtain ⟨husable, rfl, rfl⟩ | ⟨usable, registry, result, husable, happly, rfl, rfl⟩ :=
      Arena.recordOutcome_cases hrecord
    · exact .kept (Turn.written?_eq_none hlogs rfl hcutoff) (Turn.issued?_of_not_logs hlogs)
        (.refl _)
    rw [husable, Option.map_some] at hresolves
    obtain ⟨⟨refusal, rfl⟩, rfl⟩ | ⟨symbol, pull, rfl, hlocated, hlog⟩ :=
      Registry.settles_of_applyReward harmed happly
    · exact .kept (Turn.written?_eq_none hlogs rfl hcutoff) (Turn.issued?_of_not_logs hlogs)
        (.refl _)
    · exact .resolved hresolves rfl hlocated hlog
  | logPull hlog =>
    obtain ⟨⟨refusal, rfl⟩, rfl⟩ | ⟨pull, rfl, hpull, hadds⟩ := Registry.adds_of_logPull hlog
    · exact .kept rfl rfl (.refl _)
    · obtain ⟨hserial, -, harm⟩ := Registry.pullFor?_eq_some hpull
      refine .logged (Turn.written?_of_logged hpull) (fun issued hissued => ?_) hserial harm hadds
      exact (Option.some.inj hissued).symm
  | applyReward happly =>
    obtain ⟨⟨refusal, rfl⟩, rfl⟩ | ⟨symbol, pull, rfl, hlocated, hlog⟩ :=
      Registry.settles_of_applyReward harmed happly
    · exact .kept rfl rfl (.refl _)
    · exact .resolved rfl rfl hlocated hlog
  | chargeLedger hcharge =>
    obtain ⟨rfl, -⟩ := Registry.chargeLedger_eq_ok_iff.mp hcharge
    exact .kept rfl rfl ⟨fun _ => rfl, rfl⟩
  | seedLedger => exact .kept rfl rfl ⟨fun _ => rfl, rfl⟩
  | prune hcutoff =>
    exact .pruned (Turn.written?_of_cutoff hcutoff)
      (Turn.issued?_of_not_logs (Command.writes_of_cutoff hcutoff).1) rfl

end ExposureControl
