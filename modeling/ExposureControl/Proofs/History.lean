import ExposureControl.Governor.Command

/-!
# Histories

A history is a run seen from its end: the calls that were made, newest first, each with the
governor before it, its answer, and the governor after it.  Statements about the order of calls,
such as how often something was selected on a day, are statements about histories.
-/

namespace ExposureControl

/-- One call with its answer, and the governor on either side of it. -/
structure Turn where
  before : Governor
  command : Command
  answer : Except Refusal Reply
  after : Governor

namespace Turn

/-- The contest of a turn's selection and the selection itself, if the turn made one. -/
def selected? (turn : Turn) : Option (Contest × Selection) :=
  match turn.command, turn.answer with
  | .select contest _, .ok (.selection selection) => some (contest, selection)
  | _, _ => none

theorem selected?_of_not_select {turn : Turn}
    (hcommand : ∀ contest context, turn.command ≠ .select contest context) :
    turn.selected? = none := by
  unfold selected?
  split
  · next hselect _ => exact absurd hselect (hcommand _ _)
  · rfl

end Turn

/-- The turns, newest first, that lead from `start` to a governor. -/
inductive History (start : Governor) : List Turn → Governor → Prop
  /-- Nothing has happened yet. -/
  | start : History start [] start
  /-- One more command was carried out, by refusing it if need be. -/
  | turn {turns : List Turn} {governor next : Governor} {command : Command}
      {answer : Except Refusal Reply} (past : History start turns governor)
      (step : governor.step command = .ok (next, answer)) :
      History start (⟨governor, command, answer, next⟩ :: turns) next

/-- Carry commands out one after the other, and put their turns in front of `turns`. -/
def Governor.replay (governor : Governor) (turns : List Turn) :
    List Command → Except Fault (List Turn × Governor)
  | [] => .ok (turns, governor)
  | command :: rest => do
    let (next, answer) ← governor.step command
    next.replay (⟨governor, command, answer, next⟩ :: turns) rest

/-- A history may go on with another one. -/
theorem History.append {start middle governor : Governor} {later past : List Turn}
    (hlater : History middle later governor) (hpast : History start past middle) :
    History start (later ++ past) governor := by
  induction hlater with
  | start => exact hpast
  | turn _ hstep ih => exact ih.turn hstep

/-- A history passes through a governor between any two of its turns. -/
theorem History.of_append {start governor : Governor} {later past : List Turn}
    (hhistory : History start (later ++ past) governor) :
    ∃ middle, History start past middle ∧ History middle later governor := by
  induction later generalizing governor with
  | nil => exact ⟨governor, hhistory, .start⟩
  | cons turn later ih =>
    cases hhistory with
    | turn hpast hstep =>
      obtain ⟨middle, hbefore, hafter⟩ := ih hpast
      exact ⟨middle, hbefore, hafter.turn hstep⟩

/-- The governor before a turn is where the history before it led. -/
theorem History.before {start governor : Governor} {later past : List Turn} {turn : Turn}
    (hhistory : History start (later ++ turn :: past) governor) :
    History start past turn.before := by
  obtain ⟨_, hmiddle, -⟩ := hhistory.of_append
  cases hmiddle with
  | turn hpast => exact hpast

/-- Every turn of a history is a step from where the turns before it led. -/
theorem History.exists_past {start governor : Governor} {turns : List Turn}
    (hhistory : History start turns governor) {turn : Turn} (hturn : turn ∈ turns) :
    ∃ past, History start past turn.before ∧ past ⊆ turns ∧
      turn.before.step turn.command = .ok (turn.after, turn.answer) := by
  induction hhistory with
  | start => cases hturn
  | @turn turns governor next command answer past step ih =>
    cases hturn with
    | head => exact ⟨turns, past, List.subset_cons_self _ _, step⟩
    | tail _ hmem =>
      obtain ⟨earlier, hpast, hsubset, hstep⟩ := ih hmem
      exact ⟨earlier, hpast, List.subset_cons_of_subset _ hsubset, hstep⟩

/-! ## Histories and runs -/

/-- Replaying more commands extends a history. -/
theorem History.replay {start governor final : Governor} {turns all : List Turn}
    {commands : List Command} (hpast : History start turns governor)
    (hreplay : governor.replay turns commands = .ok (all, final)) :
    History start all final := by
  induction commands generalizing governor turns with
  | nil =>
    simp only [Governor.replay, Except.ok.injEq, Prod.mk.injEq] at hreplay
    obtain ⟨rfl, rfl⟩ := hreplay
    exact hpast
  | cons command rest ih =>
    simp only [Governor.replay, Fault.bind_eq_ok_iff] at hreplay
    obtain ⟨⟨next, answer⟩, hstep, hrest⟩ := hreplay
    exact ih (.turn hpast hstep) hrest

theorem Governor.commands_of_replay {governor final : Governor} {turns all : List Turn}
    {commands : List Command} (hreplay : governor.replay turns commands = .ok (all, final)) :
    (all.map Turn.command).reverse = (turns.map Turn.command).reverse ++ commands := by
  induction commands generalizing governor turns with
  | nil =>
    simp only [replay, Except.ok.injEq, Prod.mk.injEq] at hreplay
    rw [hreplay.1, List.append_nil]
  | cons command rest ih =>
    simp only [replay, Fault.bind_eq_ok_iff] at hreplay
    obtain ⟨⟨next, answer⟩, -, hrest⟩ := hreplay
    rw [ih hrest, List.map_cons, List.reverse_cons, List.append_assoc]
    rfl

theorem Governor.replay_concat {governor next final : Governor} {turns all : List Turn}
    {commands : List Command} {command : Command} {answer : Except Refusal Reply}
    (hreplay : governor.replay turns commands = .ok (all, next))
    (hstep : next.step command = .ok (final, answer)) :
    governor.replay turns (commands ++ [command]) =
      .ok (⟨next, command, answer, final⟩ :: all, final) := by
  induction commands generalizing governor turns with
  | nil =>
    simp only [replay, Except.ok.injEq, Prod.mk.injEq] at hreplay
    obtain ⟨rfl, rfl⟩ := hreplay
    simp only [List.nil_append, replay, hstep]
    rfl
  | cons first rest ih =>
    simp only [replay, Fault.bind_eq_ok_iff] at hreplay
    obtain ⟨⟨second, reply⟩, hfirst, hrest⟩ := hreplay
    simp only [List.cons_append, replay, hfirst]
    exact ih hrest

/-- The histories from a governor are what its commands replay to. -/
theorem history_iff_replay (start final : Governor) (turns : List Turn) :
    History start turns final ↔
      start.replay [] (turns.map Turn.command).reverse = .ok (turns, final) := by
  constructor
  · intro hhistory
    induction hhistory with
    | start => rfl
    | turn past step ih =>
      rw [List.map_cons, List.reverse_cons]
      exact Governor.replay_concat ih step
  · exact fun hreplay => History.start.replay hreplay

/-- A run gives the governor and the answers of the replay of its commands. -/
theorem Governor.run_eq_replay (governor : Governor) (turns : List Turn)
    (commands : List Command) :
    (governor.replay turns commands).map
        (fun replayed => (replayed.2, (replayed.1.map Turn.answer).reverse)) =
      (governor.run commands).map
        (fun done => (done.1, (turns.map Turn.answer).reverse ++ done.2)) := by
  induction commands generalizing governor turns with
  | nil => simp [replay, run, Except.map]
  | cons command rest ih =>
    cases hstep : governor.step command with
    | error fault => simp [replay, run, hstep, bind, Except.bind, Except.map]
    | ok done =>
      obtain ⟨next, answer⟩ := done
      have hrest := ih next (⟨governor, command, answer, next⟩ :: turns)
      simp only [replay, run, hstep, bind, Except.bind, hrest]
      cases next.run rest <;> simp [Except.map, pure, Except.pure]

/-- A run to a governor is a history that ends there, with the same answers. -/
theorem run_eq_ok_iff (start final : Governor) (commands : List Command)
    (answers : List (Except Refusal Reply)) :
    start.run commands = .ok (final, answers) ↔
      ∃ turns, History start turns final ∧ (turns.map Turn.command).reverse = commands ∧
        (turns.map Turn.answer).reverse = answers := by
  have hview := Governor.run_eq_replay start [] commands
  constructor
  · intro hrun
    cases hreplay : start.replay [] commands with
    | error fault => simp [hrun, hreplay, Except.map] at hview
    | ok replayed =>
      obtain ⟨turns, last⟩ := replayed
      simp only [hrun, hreplay, Except.map, List.map_nil, List.reverse_nil, List.nil_append,
        Except.ok.injEq, Prod.mk.injEq] at hview
      obtain ⟨rfl, hanswers⟩ := hview
      have hcommands := Governor.commands_of_replay hreplay
      rw [List.map_nil, List.reverse_nil, List.nil_append] at hcommands
      exact ⟨turns, History.start.replay hreplay, hcommands, hanswers⟩
  · rintro ⟨turns, hhistory, rfl, rfl⟩
    rw [(history_iff_replay start final turns).mp hhistory] at hview
    cases hrun : start.run (turns.map Turn.command).reverse with
    | error fault => simp [hrun, Except.map] at hview
    | ok done => simpa [hrun, Except.map, Prod.ext_iff, eq_comm] using hview

/-! ## Concrete histories -/

/-- Whether commands can be carried out from a new governor, with turns that pass a check. -/
def Governor.replays (settings : Settings) (commands : List Command)
    (check : List Turn → Governor → Bool) : Bool :=
  match create settings 0 .log ⟨0⟩ with
  | .error _ => false
  | .ok start =>
    match start.replay [] commands with
    | .error _ => false
    | .ok (turns, governor) => check turns governor

/-- Commands that can be carried out make a history. -/
theorem Governor.exists_history_of_replays (settings : Settings) (commands : List Command)
    (check : List Turn → Governor → Bool) (hreplays : replays settings commands check = true) :
    ∃ start turns governor, create settings 0 .log ⟨0⟩ = .ok start ∧
      History start turns governor ∧ (turns.map Turn.command).reverse = commands ∧
      check turns governor = true := by
  unfold replays at hreplays
  split at hreplays
  · cases hreplays
  · next start hcreate =>
    split at hreplays
    · cases hreplays
    · next turns governor hreplay =>
      exact ⟨start, turns, governor, hcreate, History.start.replay hreplay,
        by simpa using commands_of_replay hreplay, hreplays⟩

theorem Turn.command_mem {turns : List Turn} {commands : List Command}
    (hcommands : (turns.map Turn.command).reverse = commands) {turn : Turn}
    (hturn : turn ∈ turns) : turn.command ∈ commands := by
  rw [← hcommands, List.mem_reverse]
  exact List.mem_map_of_mem hturn

end ExposureControl
