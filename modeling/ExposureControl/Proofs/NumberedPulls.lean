import ExposureControl.Proofs.PullJournal

/-!
# The numbers of pulls

The journal and the log of pulls stay in step: every history is what is left of the lines of its
symbol.  So the serial numbers of pulls tell in which order they were logged, whatever happens to
the pulls later, and the recent pulls of a contest are its last lines that were not struck out.
-/

namespace ExposureControl

variable {lines : List JournalLine} {serial : Nat} {outcome : Outcome} {pull : Pull}

/-! ## The invariant -/

/-- Whether the lines of a journal and the log of a registry tell the same.  The arms of all pulls
are on record, struck out or not, so that no report is refused for want of one. -/
structure Journaled (lines : List JournalLine) (registry : Registry) : Prop where
  numbered : (lines.map fun line => line.pull.serial) = List.range' 1 lines.length
  counted : registry.pullsLogged = lines.length
  histories : ∀ symbol, registry.historyOf symbol =
    keptPulls (fun contest => contest.symbol = symbol) lines
  armed : ∀ line ∈ lines, (registry.arms.find? line.pull.arm).isSome = true

namespace Journaled

variable {before after registry : Registry}

theorem empty : Journaled [] Registry.empty := ⟨rfl, rfl, fun _ => rfl, nofun⟩

theorem ordered (hjournaled : Journaled lines registry) :
    (lines.map JournalLine.pull).Pairwise fun older newer => older.serial < newer.serial := by
  have hnumbers : (List.range' 1 lines.length).Pairwise (· < ·) := List.pairwise_lt_range'
  rw [← hjournaled.numbered, List.pairwise_map] at hnumbers
  exact List.pairwise_map.mpr hnumbers

theorem ordered_keptPulls (hjournaled : Journaled lines registry) (keeps : Contest → Bool) :
    (keptPulls keeps lines).Pairwise fun older newer => older.serial < newer.serial :=
  hjournaled.ordered.sublist keptPulls_sublist

theorem mem_historyOf_iff (hjournaled : Journaled lines registry) (symbol : String) :
    pull ∈ registry.historyOf symbol ↔
      ⟨pull, true⟩ ∈ lines ∧ pull.contest.symbol = symbol := by
  rw [hjournaled.histories, mem_keptPulls_iff, decide_eq_true_eq]

/-- Pulls on record that have one serial number are the same, whatever their symbols. -/
theorem unique (hjournaled : Journaled lines registry) {symbol other : String}
    {first second : Pull} (hfirst : first ∈ registry.historyOf symbol)
    (hsecond : second ∈ registry.historyOf other) (hserial : first.serial = second.serial) :
    first = second := by
  have hdistinct : (lines.map fun line => line.pull.serial).Nodup := by
    rw [hjournaled.numbered]
    exact List.nodup_range'
  exact congrArg JournalLine.pull (List.inj_on_of_nodup_map hdistinct
    ((hjournaled.mem_historyOf_iff symbol).mp hfirst).1
    ((hjournaled.mem_historyOf_iff other).mp hsecond).1 hserial)

theorem armed_historyOf (hjournaled : Journaled lines registry) :
    ∀ symbol, ∀ pull ∈ registry.historyOf symbol,
      (registry.arms.find? pull.arm).isSome = true := by
  intro symbol pull hpull
  have hline := ((hjournaled.mem_historyOf_iff symbol).mp hpull).1
  exact hjournaled.armed _ hline

theorem recentPulls (hjournaled : Journaled lines registry) (contest : Contest) (limit : Nat) :
    registry.recentPulls contest limit =
      (keptPulls (fun other => other = contest) lines).reverse.take (max limit 1) := by
  have hcontest : ∀ other : Contest,
      (decide (other.symbol = contest.symbol) &&
        decide (other.regime = contest.regime ∧ other.side = contest.side)) =
      decide (other = contest) := by
    intro other
    rw [← Bool.decide_and, decide_eq_decide]
    cases other
    cases contest
    rw [Contest.mk.injEq]
  rw [Registry.recentPulls, hjournaled.histories, List.filter_reverse,
    filter_keptPulls fun other =>
      decide (other.regime = contest.regime ∧ other.side = contest.side)]
  simp only [hcontest]

/-! ### Steps -/

/-- Settling a pull in its line settles it in its history, and leaves all other histories alone. -/
theorem historyOf_settled (hjournaled : Journaled lines before) {decision : DecisionId}
    {symbol : String} (hlocated : before.locate? decision = some (symbol, pull))
    (hlog : pull.resolved = true ∧ Registry.SameLog before after ∨
      pull.resolved = false ∧
        (before.withOutcome symbol { pull with outcome := some outcome }).SameLog after)
    (other : String) :
    after.historyOf other = (before.historyOf other).map (Pull.settle pull.serial outcome) := by
  obtain ⟨-, hfound⟩ := (Registry.locate?_eq_some_iff decision symbol pull).mp hlocated
  have hpull := List.mem_of_find?_eq_some hfound
  obtain ⟨hresolved, hlog⟩ | ⟨hopen, hlog⟩ := hlog
  · rw [hlog.historyOf, map_settle_eq_self]
    intro known hknown hserial
    rwa [hjournaled.unique hknown hpull hserial]
  rw [hlog.historyOf, Registry.historyOf_withOutcome]
  split
  · next heq =>
    subst heq
    obtain rfl : pull.decision = decision := by simpa using List.find?_some hfound
    refine (map_settle_of_find? ?_ hfound hopen).symm
    rw [hjournaled.histories]
    exact hjournaled.ordered_keptPulls _
  · next hne =>
    -- the number is in the history of one symbol only
    rw [map_settle_eq_self]
    intro known hknown hserial
    obtain rfl := hjournaled.unique hknown hpull hserial
    have hother := ((hjournaled.mem_historyOf_iff other).mp hknown).2
    exact absurd (hother.symm.trans ((hjournaled.mem_historyOf_iff symbol).mp hpull).2) hne

theorem ofSameLog (hjournaled : Journaled lines before) (hsame : Registry.SameLog before after)
    (harmed : ∀ line ∈ lines, (after.arms.find? line.pull.arm).isSome = true) :
    Journaled lines after where
  numbered := hjournaled.numbered
  counted := hsame.pullsLogged.trans hjournaled.counted
  histories symbol := (hsame.historyOf symbol).trans (hjournaled.histories symbol)
  armed := harmed

/-- A pull with the next number gets a line of its own. -/
theorem logged (hjournaled : Journaled lines before) (hserial : pull.serial = lines.length + 1)
    (hadds : Registry.AddsPull pull before after)
    (harmed : ∀ line ∈ lines, (after.arms.find? line.pull.arm).isSome = true)
    (harm : (after.arms.find? pull.arm).isSome = true) :
    Journaled ((JournalEntry.logged pull).write lines) after where
  numbered := by
    rw [JournalEntry.write, List.map_append, hjournaled.numbered, List.length_append,
      List.length_singleton, List.range'_concat, List.map_singleton, hserial, Nat.one_mul,
      Nat.add_comm]
  counted := by
    rw [hadds.pullsLogged, hjournaled.counted, JournalEntry.write, List.length_append,
      List.length_singleton]
  histories symbol := by
    rw [hadds.historyOf, keptPulls_logged, hjournaled.histories]
    simp only [decide_eq_true_eq, @eq_comm _ symbol]
  armed line hline := by
    rw [JournalEntry.write, List.mem_append, List.mem_singleton] at hline
    obtain hline | rfl := hline
    · exact harmed line hline
    · exact harm

/-- Settling a pull in its line settles it in its history. -/
theorem resolved (hjournaled : Journaled lines before)
    (hsettled : ∀ symbol, after.historyOf symbol =
      (before.historyOf symbol).map (Pull.settle serial outcome))
    (hcounted : after.pullsLogged = before.pullsLogged)
    (harmed : ∀ line ∈ lines, (after.arms.find? line.pull.arm).isSome = true) :
    Journaled ((JournalEntry.resolved serial outcome).write lines) after where
  numbered := by
    rw [JournalEntry.serials_resolved, hjournaled.numbered, JournalEntry.write, List.length_map]
  counted := by
    rw [hcounted, hjournaled.counted, JournalEntry.write, List.length_map]
  histories symbol := by
    rw [hsettled, hjournaled.histories, keptPulls_resolved]
  armed line hline := by
    obtain ⟨known, hknown, rfl⟩ := List.mem_map.mp hline
    rw [Pull.arm_settle]
    exact harmed known hknown

theorem pruned (hjournaled : Journaled lines before) (cutoff : Instant) :
    Journaled ((JournalEntry.pruned cutoff).write lines) (before.prunePulls cutoff).1 where
  numbered := by
    rw [JournalEntry.serials_pruned, hjournaled.numbered, JournalEntry.write, List.length_map]
  counted := by
    rw [JournalEntry.write, List.length_map]
    exact hjournaled.counted
  histories symbol := by
    rw [Registry.historyOf_prunePulls, hjournaled.histories, keptPulls_pruned]
  armed line hline := by
    obtain ⟨known, hknown, rfl⟩ := List.mem_map.mp hline
    exact hjournaled.armed known hknown

/-- Every turn keeps the journal and the log in step. -/
theorem step {turn : Turn} (hjournaled : Journaled lines turn.before.registry)
    (hstep : LogStep turn)
    (harms : ∀ id, (turn.before.registry.arms.find? id).isSome = true →
      (turn.after.registry.arms.find? id).isSome = true) :
    Journaled (turn.write lines) turn.after.registry := by
  have harmed : ∀ line ∈ lines, (turn.after.registry.arms.find? line.pull.arm).isSome = true :=
    fun line hline => harms _ (hjournaled.armed line hline)
  cases hstep with
  | kept hentry hissued hsame =>
    rw [hjournaled.counted] at hentry
    rw [Turn.write_of_none hentry]
    exact hjournaled.ofSameLog hsame harmed
  | logged hentry hissued hserial harm hadds =>
    rw [hjournaled.counted] at hentry hserial
    rw [Turn.write_of_some hentry]
    exact hjournaled.logged hserial hadds harmed (harms _ harm)
  | resolved hcommand hanswer hlocated hlog =>
    rw [Turn.write_of_some (Turn.written?_of_resolves hcommand hanswer), Pull.serial_settle]
    have hcounted : turn.after.registry.pullsLogged = turn.before.registry.pullsLogged := by
      obtain ⟨-, hlog⟩ | ⟨-, hlog⟩ := hlog
      · exact hlog.pullsLogged
      · exact hlog.pullsLogged
    exact hjournaled.resolved (hjournaled.historyOf_settled hlocated hlog) hcounted harmed
  | pruned hentry hissued hpruned =>
    rw [hjournaled.counted] at hentry
    rw [Turn.write_of_some hentry, hpruned]
    exact hjournaled.pruned _

end Journaled

variable {start governor : Governor} {turns : List Turn}

/-- After every history the journal of its turns and the log tell the same. -/
theorem History.journaled (hhistory : History start turns governor)
    (hempty : start.registry = .empty) : Journaled (journal turns) governor.registry := by
  induction hhistory with
  | start =>
    rw [hempty]
    exact .empty
  | turn past step ih =>
    have hstep := (Governor.arenaStep_of_step step).1
    exact ih.step (hstep.logStep ih.armed_historyOf) fun _ hfound => hstep.roster.isSome hfound

/-- Every turn of a history changes the log as its entry in the journal says. -/
theorem History.logStep (hhistory : History start turns governor)
    (hempty : start.registry = .empty) {later earlier : List Turn} {turn : Turn}
    (hturns : turns = later ++ turn :: earlier) :
    Journaled (journal earlier) turn.before.registry ∧ LogStep turn := by
  subst hturns
  obtain ⟨_, hmiddle, -⟩ := hhistory.of_append
  cases hmiddle with
  | turn hpast hstep =>
    have hjournaled := hpast.journaled hempty
    exact ⟨hjournaled,
      (Governor.arenaStep_of_step hstep).1.logStep hjournaled.armed_historyOf⟩

/-! ## The journal of a run -/

/-- Whether the pulls that were issued, and those on record, are what the journal tells. -/
structure FollowsJournal (turns : List Turn) (registry : Registry) : Prop where
  /-- Lines are numbered from 1 in the order of logging, whatever else happens. -/
  numbered : ((journal turns).map fun line => line.pull.serial) =
    List.range' 1 (journal turns).length
  /-- A pull that a call logs and answers is the next line of the journal. -/
  issued : ∀ later turn earlier pull, turns = later ++ turn :: earlier →
    turn.issued? = some pull → journal (turn :: earlier) = journal earlier ++ [⟨pull, true⟩]
  /-- A pull that a call resolves is the pull of its decision, and is answered as the journal has
  it from then on. -/
  resolved : ∀ later turn earlier decision outcome pull, turns = later ++ turn :: earlier →
    turn.command.resolves? turn.before.settings = some (decision, outcome) →
    turn.answer = .ok (.pull (some pull)) →
    pull.decision = decision ∧ ⟨pull, true⟩ ∈ journal (turn :: earlier)
  /-- Calls issue increasing numbers, as seen from the last call. -/
  increasing : (turns.filterMap Turn.issued?).Pairwise fun newer older =>
    older.serial < newer.serial
  /-- No two pulls on record, of whatever symbols, have one number. -/
  distinct : ∀ symbol other, ∀ first ∈ registry.historyOf symbol,
    ∀ second ∈ registry.historyOf other, first.serial = second.serial → first = second
  histories : ∀ symbol, registry.historyOf symbol =
    keptPulls (fun contest => contest.symbol = symbol) (journal turns)
  ascending : ∀ symbol, (registry.historyOf symbol).Pairwise fun older newer =>
    older.serial < newer.serial
  recent : ∀ contest limit, registry.recentPulls contest limit =
    (keptPulls (fun other => other = contest) (journal turns)).reverse.take (max limit 1)
  descending : ∀ contest limit, (registry.recentPulls contest limit).Pairwise fun newer older =>
    older.serial < newer.serial

theorem LogStep.write_of_issued {turn : Turn} (hstep : LogStep turn)
    (hjournaled : Journaled lines turn.before.registry) (hissued : turn.issued? = some pull) :
    turn.write lines = lines ++ [⟨pull, true⟩] := by
  cases hstep with
  | logged hentry hlogged =>
    obtain rfl := hlogged pull hissued
    rw [hjournaled.counted] at hentry
    exact Turn.write_of_some hentry
  | kept _ hnone | pruned _ hnone => cases hissued.symm.trans hnone
  | resolved hcommand =>
    cases hissued.symm.trans (Turn.issued?_of_not_logs (Command.logs_of_resolves hcommand))

/-- A pull that a call resolves is the pull of its decision, and is answered as the journal has
it. -/
theorem LogStep.mem_write_of_resolves {turn : Turn} (hstep : LogStep turn)
    (hjournaled : Journaled lines turn.before.registry) {decision : DecisionId}
    (hcommand : turn.command.resolves? turn.before.settings = some (decision, outcome))
    (hanswer : turn.answer = .ok (.pull (some pull))) :
    pull.decision = decision ∧ ⟨pull, true⟩ ∈ turn.write lines := by
  have hentry : ∀ serial, turn.written? serial = some (.resolved pull.serial outcome) :=
    fun _ => Turn.written?_of_resolves hcommand hanswer
  cases hstep with
  | kept hother | logged hother | pruned hother => cases (hentry _).symm.trans hother
  | @resolved _ _ symbol found hreports hreply hlocated =>
    obtain ⟨rfl, rfl⟩ := Prod.mk.inj (Option.some.inj (hcommand.symm.trans hreports))
    obtain rfl : found.settle found.serial outcome = pull := by
      rw [hreply] at hanswer
      injection hanswer with hreply
      injection hreply with hpull
      exact Option.some.inj hpull
    obtain ⟨-, hfound⟩ := (Registry.locate?_eq_some_iff decision symbol found).mp hlocated
    have hline := ((hjournaled.mem_historyOf_iff symbol).mp (List.mem_of_find?_eq_some hfound)).1
    rw [Turn.write_of_some (hentry _), Pull.serial_settle, Pull.decision_settle]
    exact ⟨by simpa using List.find?_some hfound, List.mem_map_of_mem hline⟩

theorem History.serials_sublist (hhistory : History start turns governor)
    (hempty : start.registry = .empty) :
    ((turns.filterMap Turn.issued?).map Pull.serial).Sublist
      ((journal turns).map fun line => line.pull.serial).reverse := by
  induction turns generalizing governor with
  | nil => exact List.nil_sublist _
  | cons turn earlier ih =>
    obtain ⟨hjournaled, hstep⟩ := hhistory.logStep hempty (List.nil_append (turn :: earlier)).symm
    have hsplit : History start ([] ++ turn :: earlier) governor := hhistory
    have hearlier := ih hsplit.before
    rw [journal, List.foldr_cons, ← journal]
    cases hissued : turn.issued? with
    | none =>
      rw [List.filterMap_cons_none hissued]
      exact hearlier.trans turn.serials_prefix.sublist.reverse
    | some pull =>
      rw [List.filterMap_cons_some hissued, hstep.write_of_issued hjournaled hissued,
        List.map_append, List.reverse_append, List.map_cons]
      exact hearlier.cons_cons _

/-- After any calls, whether they are refused or not, pulls are numbered from 1 in the order in
which they were logged, for all symbols and across prunes.  Every history has the pulls of its
symbol that were not pruned, in that order, and the recent pulls of a contest are the last of them
that are the contest's, newest first; each has the outcome that came in for it first. -/
theorem pulls_follow_journal {settings : Settings} {entropy : Seeding} {notifier : Notifier}
    {clock : Instant} (hcreate : Governor.create settings entropy notifier clock = .ok start)
    (hhistory : History start turns governor) : FollowsJournal turns governor.registry := by
  have hempty : start.registry = .empty := by
    rw [Governor.registry, (Governor.create_eq_ok hcreate).2.2]
    rfl
  have hjournaled := hhistory.journaled hempty
  have hascending : ∀ symbol, (governor.registry.historyOf symbol).Pairwise
      fun older newer => older.serial < newer.serial := by
    intro symbol
    rw [hjournaled.histories]
    exact hjournaled.ordered_keptPulls _
  refine ⟨hjournaled.numbered, ?_, ?_, ?_, fun _ _ _ hfirst _ => hjournaled.unique hfirst,
    hjournaled.histories, hascending, hjournaled.recentPulls, ?_⟩
  · intro later turn earlier pull hturns hissued
    obtain ⟨hearlier, hstep⟩ := hhistory.logStep hempty hturns
    exact hstep.write_of_issued hearlier hissued
  · intro later turn earlier decision outcome pull hturns hcommand hanswer
    obtain ⟨hearlier, hstep⟩ := hhistory.logStep hempty hturns
    exact hstep.mem_write_of_resolves hearlier hcommand hanswer
  · have hnumbers : (List.range' 1 (journal turns).length).Pairwise (· < ·) :=
      List.pairwise_lt_range'
    rw [← hjournaled.numbered] at hnumbers
    exact List.pairwise_map.mp
      ((List.pairwise_reverse.mpr hnumbers).sublist (hhistory.serials_sublist hempty))
  · intro contest limit
    rw [hjournaled.recentPulls]
    exact (List.pairwise_reverse.mpr (hjournaled.ordered_keptPulls _)).sublist
      (List.take_sublist _ _)

theorem pulls_follow_journal_of_struck_selection :
    let rising : Contest := ⟨"BTC", "UP", .buy⟩
    let falling : Contest := ⟨"BTC", "DOWN", .sell⟩
    let arm (id : Nat) (contest : Contest) : Arm :=
      .create (.given ⟨id⟩) contest ⟨.given ⟨9⟩, .baseline⟩ ⟨0⟩
    let log (id : Nat) (decision : String) (time : Int) : Command :=
      .logPull (.given ⟨id⟩) (.given decision) .empty ⟨0⟩ ⟨time⟩
    ∃ start turns governor,
      Governor.create { selection := { policy := .ucb1 } } 0 .log ⟨0⟩ = .ok start ∧
      History start turns governor ∧
      (turns.map Turn.command).reverse = [.restoreArm (arm 1 rising), .restoreArm (arm 2 falling),
        log 1 "first" 5, log 7 "nobody" 5, log 2 "other" 6, .select rising .empty, log 1 "late" 7,
        .applyReward (.given "first") ⟨0.5, 0.5, 0.0, 0.0⟩ ⟨0⟩ ⟨8⟩, .prunePulls ⟨4⟩] ∧
      FollowsJournal turns governor.registry ∧
      (turns.filterMap Turn.issued?).map Pull.serial = [4, 2, 1] ∧
      (governor.registry.recentPulls rising 5).map (fun pull => (pull.serial, pull.resolved)) =
        [(4, false), (1, true)] ∧
      (governor.registry.recentPulls rising 0).map Pull.serial = [4] := by
  intro rising falling arm log
  obtain ⟨start, turns, governor, hcreate, hhistory, hcommands, hcheck⟩ :=
    Governor.exists_history_of_replays { selection := { policy := .ucb1 } }
      [.restoreArm (arm 1 rising), .restoreArm (arm 2 falling), log 1 "first" 5, log 7 "nobody" 5,
        log 2 "other" 6, .select rising .empty, log 1 "late" 7,
        .applyReward (.given "first") ⟨0.5, 0.5, 0.0, 0.0⟩ ⟨0⟩ ⟨8⟩, .prunePulls ⟨4⟩]
      (fun turns governor =>
        (turns.filterMap Turn.issued?).map Pull.serial = [4, 2, 1] ∧
        (governor.registry.recentPulls rising 5).map (fun pull => (pull.serial, pull.resolved)) =
          [(4, false), (1, true)] ∧
        (governor.registry.recentPulls rising 0).map Pull.serial = [4])
      (by decide +kernel)
  exact ⟨start, turns, governor, hcreate, hhistory, hcommands,
    pulls_follow_journal hcreate hhistory, of_decide_eq_true hcheck⟩

end ExposureControl
