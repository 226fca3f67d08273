import ExposureControl.Proofs.CreditStep
import ExposureControl.Proofs.DriftSignals
import ExposureControl.Proofs.FillMatching

/-!
# Malformed calls

Bad market data reaches the governor as numbers that are not finite.  A call that is about such a
number does nothing and answers nothing, and one that merely carries it along takes it as absent.
So a run may as well be carried out on tidied calls: the governors that it passes through, its
other answers, the alerts that it publishes and the fault that may end it are the same.
-/

namespace ExposureControl

open Drift (Watch)

theorem Binary64.finiteOf?_finiteOf? (x : Option Float) :
    finiteOf? (finiteOf? x) = finiteOf? x := by
  refine Option.ext fun value => ?_
  simp only [finiteOf?_eq_some_iff, and_assoc, and_self]

def Shadow.Ticket.isFinite (ticket : Ticket) : Bool :=
  ticket.entryPrice.isFinite && ticket.quantity.isFinite && ticket.stopLoss.isFinite &&
    ticket.takeProfit.isFinite

namespace Command

/-- Whether a number that the call cannot do without is not finite. -/
def isMalformed : Command → Bool
  | recordOutcome _ outcome => !outcome.reward.isFinite
  | fill _ price _ _ => !price.isFinite
  | registerShadow ticket => !ticket.isFinite
  | priceTick _ price => !price.isFinite
  | reportLive _ result | reportShadow _ result | bookLive _ result
  | recordTradeResult _ result => !result.isFinite
  | _ => false

/-- The call without the numbers that it may do without and that are not finite. -/
def trimmed : Command → Command
  | recordTrade decision profit slippage fees =>
    recordTrade decision (Binary64.finiteOf? profit) (Binary64.finiteOf? slippage)
      (Binary64.finiteOf? fees)
  | submit submission =>
    submit { submission with
      referencePrice := Binary64.finiteOf? submission.referencePrice
      dailyVolume := Binary64.finiteOf? submission.dailyVolume
      averageRange := Binary64.finiteOf? submission.averageRange }
  | fill order price spread filledAt => fill order price (Binary64.finiteOf? spread) filledAt
  | command => command

/-- The call trimmed, unless it is malformed. -/
def tidied? (command : Command) : Option Command :=
  if command.isMalformed then none else some command.trimmed

/-- The answer that says nothing. -/
def silence : Command → Reply
  | recordOutcome _ _ => .pull none
  | fill _ _ _ _ => .sample none
  | registerShadow _ => .position none
  | priceTick _ _ => .positions []
  | _ => .done

end Command

def Turn.tidied? (turn : Turn) : Option Turn :=
  turn.command.tidied?.map fun command => { turn with command }

namespace Command

variable {command : Command}

theorem tidied?_of_isMalformed (hmalformed : command.isMalformed = true) :
    command.tidied? = none :=
  if_pos hmalformed

theorem tidied?_of_not_isMalformed (hmalformed : command.isMalformed = false) :
    command.tidied? = some command.trimmed :=
  if_neg (Bool.eq_false_iff.mp hmalformed)

end Command

/-! ## One call -/

namespace Drift.Watch

theorem receive_trade_of_not_finite {settings : Settings.Drift} {result : Float}
    (hfinite : result.isFinite = false) (watch : Watch) (now : Instant) (track : Track) :
    watch.receive settings (.trade now track result) = (watch, []) := by
  simp [receive, Monitor.record, hfinite]

end Drift.Watch

namespace Shadow.Engine

variable {settings : Settings.Shadow} {symbol : String} {result price : Float} {now : Instant}

theorem bookLive_of_not_finite (hfinite : result.isFinite = false) (engine : Engine) :
    engine.bookLive settings symbol result = (engine, none) := by
  simp [bookLive, hfinite]

theorem bookShadow_of_not_finite (hfinite : result.isFinite = false) (engine : Engine) :
    engine.bookShadow settings symbol result = (engine, none) := by
  simp [bookShadow, hfinite]

theorem register_of_not_finite {ticket : Ticket} (hfinite : ticket.isFinite = false)
    (engine : Engine) : engine.register settings ticket now = (engine, none) := by
  have hunusable : acceptable ticket = false := by
    rw [acceptable, ← Ticket.isFinite, hfinite, Bool.false_and, Bool.false_and]
  simp [register, hunusable]

theorem priceTick_of_not_finite (hfinite : price.isFinite = false) (engine : Engine) :
    engine.priceTick settings symbol price now = .ok (engine, [], []) := by
  simp [priceTick, hfinite]

end Shadow.Engine

namespace Governor

variable {command : Command} {symbol : String} {result : Float}

theorem recordTradeResult_of_not_finite (hfinite : result.isFinite = false)
    (track : Drift.Track) (governor : Governor) :
    governor.recordTradeResult track result = governor := by
  simp [recordTradeResult, Drift.Monitor.record, hfinite, publish]

theorem bookLive_of_not_finite (hfinite : result.isFinite = false) (governor : Governor) :
    governor.bookLive symbol result = governor := by
  simp [bookLive, Shadow.Engine.bookLive_of_not_finite hfinite, publish]

theorem step_of_isMalformed (hmalformed : command.isMalformed = true) (governor : Governor) :
    governor.step command = .ok (governor, .ok command.silence) := by
  cases command with
  | recordOutcome decision outcome =>
    have hunusable := (Outcome.usable?_eq_none_iff outcome).mpr
      ((Bool.not_eq_true' _).mp hmalformed)
    simp only [step, recordOutcome, tryArena, Arena.recordOutcome, hunusable]
    rfl
  | fill order price spread filledAt =>
    have hfinite := (Bool.not_eq_true' _).mp hmalformed
    simp only [step, fill, Costs.Desk.fill, hfinite, Bool.and_false]
    rfl
  | registerShadow ticket =>
    have hfinite := (Bool.not_eq_true' _).mp hmalformed
    simp only [step, registerShadow, Shadow.Engine.register_of_not_finite hfinite]
    rfl
  | priceTick symbol price =>
    have hfinite := (Bool.not_eq_true' _).mp hmalformed
    simp only [step, priceTick, Shadow.Engine.priceTick_of_not_finite hfinite]
    rfl
  | reportLive symbol result =>
    have hfinite := (Bool.not_eq_true' _).mp hmalformed
    simp only [step, reportLive, bookLive_of_not_finite hfinite,
      recordTradeResult_of_not_finite hfinite]
    rfl
  | reportShadow symbol result =>
    have hfinite := (Bool.not_eq_true' _).mp hmalformed
    simp only [step, reportShadow, Shadow.Engine.bookShadow_of_not_finite hfinite]
    rfl
  | bookLive symbol result =>
    have hfinite := (Bool.not_eq_true' _).mp hmalformed
    simp only [step, bookLive_of_not_finite hfinite]
    rfl
  | recordTradeResult track result =>
    have hfinite := (Bool.not_eq_true' _).mp hmalformed
    simp only [step, recordTradeResult_of_not_finite hfinite]
    rfl
  | _ => cases hmalformed

theorem step_trimmed (command : Command) (governor : Governor) :
    governor.step command.trimmed = governor.step command := by
  cases command with
  | recordTrade decision profit slippage fees =>
    simp only [Command.trimmed, step, recordTrade, Outcome.ofTrade, Binary64.finiteOf?_finiteOf?]
  | submit submission =>
    simp only [Command.trimmed, step, submit, Costs.Desk.submit, Binary64.finiteOf?_finiteOf?]
  | fill order price spread filledAt =>
    simp only [Command.trimmed, step, fill, Costs.Desk.fill, Costs.Desk.sampleOf,
      Binary64.finiteOf?_finiteOf?]
  | _ => rfl

/-- Whatever a malformed call sends to the watch, the watch makes nothing of it. -/
theorem run_signals_of_isMalformed (hmalformed : command.isMalformed = true)
    (governor : Governor) :
    governor.watch.run governor.settings.drift (governor.signals command) =
      (governor.watch, []) := by
  cases command with
  | priceTick symbol price =>
    have hfinite := (Bool.not_eq_true' _).mp hmalformed
    simp only [signals, Shadow.Engine.priceTick_of_not_finite hfinite]
    rfl
  | reportLive symbol result =>
    have hfinite := (Bool.not_eq_true' _).mp hmalformed
    simp only [signals, Shadow.Engine.bookLive_of_not_finite hfinite, Option.toList_none,
      List.map_nil, List.nil_append, Watch.run_singleton]
    exact Watch.receive_trade_of_not_finite hfinite _ _ _
  | reportShadow symbol result =>
    have hfinite := (Bool.not_eq_true' _).mp hmalformed
    simp only [signals, Shadow.Engine.bookShadow_of_not_finite hfinite]
    rfl
  | bookLive symbol result =>
    have hfinite := (Bool.not_eq_true' _).mp hmalformed
    simp only [signals, Shadow.Engine.bookLive_of_not_finite hfinite]
    rfl
  | recordTradeResult track result =>
    exact (Watch.run_singleton _ _).trans
      (Watch.receive_trade_of_not_finite ((Bool.not_eq_true' _).mp hmalformed) _ _ _)
  | recordOutcome | fill | registerShadow => rfl
  | _ => cases hmalformed

theorem signals_trimmed (command : Command) (governor : Governor) :
    governor.signals command.trimmed = governor.signals command := by
  cases command <;> rfl

end Governor

/-! ## A run -/

/-- Tidied calls replay to the tidied turns. -/
theorem Governor.replay_tidied (governor : Governor) (turns : List Turn)
    (commands : List Command) :
    governor.replay (turns.filterMap Turn.tidied?) (commands.filterMap Command.tidied?) =
      (governor.replay turns commands).map
        fun replayed => (replayed.1.filterMap Turn.tidied?, replayed.2) := by
  induction commands generalizing governor turns with
  | nil => rfl
  | cons command rest ih =>
    cases hmalformed : command.isMalformed with
    | true =>
      let turn : Turn := ⟨governor, command, .ok command.silence, governor⟩
      have hnone := Command.tidied?_of_isMalformed hmalformed
      have hturn : turn.tidied? = none := by rw [Turn.tidied?, hnone, Option.map_none]
      have hrest := ih governor (turn :: turns)
      rw [List.filterMap_cons_none hturn] at hrest
      rw [List.filterMap_cons_none hnone, hrest, replay, step_of_isMalformed hmalformed]
      rfl
    | false =>
      have hsome := Command.tidied?_of_not_isMalformed hmalformed
      rw [List.filterMap_cons_some hsome, replay, replay, step_trimmed]
      cases governor.step command with
      | error fault => rfl
      | ok done =>
        let turn : Turn := ⟨governor, command, done.2, done.1⟩
        have hturn : turn.tidied? = some { turn with command := command.trimmed } := by
          rw [Turn.tidied?, hsome, Option.map_some]
        have hrest := ih done.1 (turn :: turns)
        rw [List.filterMap_cons_some hturn] at hrest
        exact hrest

theorem transcript_tidied (turns : List Turn) :
    transcript (turns.filterMap Turn.tidied?) = transcript turns := by
  induction turns with
  | nil => rfl
  | cons turn past ih =>
    cases hmalformed : turn.command.isMalformed with
    | true =>
      have hturn : turn.tidied? = none := by
        rw [Turn.tidied?, Command.tidied?_of_isMalformed hmalformed, Option.map_none]
      rw [List.filterMap_cons_none hturn, ih, transcript,
        Governor.run_signals_of_isMalformed hmalformed, List.append_nil]
    | false =>
      have hturn : turn.tidied? = some { turn with command := turn.command.trimmed } := by
        rw [Turn.tidied?, Command.tidied?_of_not_isMalformed hmalformed, Option.map_some]
      rw [List.filterMap_cons_some hturn, transcript, transcript, ih, Governor.signals_trimmed]

/-- Tidied calls end at the same fault as the calls that they come from or lead, call by call,
through the same governors to the same answers and alerts, and those that are left out left the
governor as it was and answered nothing. -/
theorem malformed_calls_ignored (start : Governor) (commands : List Command) :
    start.replay [] (commands.filterMap Command.tidied?) =
        (start.replay [] commands).map
          (fun replayed => (replayed.1.filterMap Turn.tidied?, replayed.2)) ∧
      ∀ turns governor, start.replay [] commands = .ok (turns, governor) →
        published (turns.filterMap Turn.tidied?) = published turns ∧
        ∀ turn ∈ turns, turn.command.isMalformed = true →
          turn.after = turn.before ∧ turn.answer = .ok turn.command.silence := by
  refine ⟨start.replay_tidied [] commands, fun turns governor hreplay => ⟨?_, ?_⟩⟩
  · rw [published, transcript_tidied, published]
  · intro turn hturn hmalformed
    obtain ⟨_, -, -, hstep⟩ := (History.start.replay hreplay).exists_past hturn
    rw [Governor.step_of_isMalformed hmalformed, Except.ok.injEq, Prod.mk.injEq] at hstep
    exact ⟨hstep.1.symm, hstep.2.symm⟩

/-- An order with an undefined volume that is filled once at no price and once at a price, after
a live result that is undefined. -/
def noisyFill : List Command :=
  [.reportLive "BTC" Binary64.undefined,
    .submit ⟨some "order", "BTC", .buy, .market, some 100.0, some Binary64.undefined, none, none⟩,
    .fill "order" Binary64.infinity none none,
    .fill "order" 101.0 (some Binary64.negInfinity) none]

/-- The undefined result and the fill at no price are left out, and the order is still filled. -/
theorem malformed_calls_ignored_noisyFill :
    ∃ start turns governor, Governor.create {} 0 .log ⟨0⟩ = .ok start ∧
      start.replay [] noisyFill = .ok (turns, governor) ∧
      turns.map (·.command.isMalformed) = [false, true, false, true] ∧
      governor.costs.history.size "BTC" = 1 ∧
      start.replay [] (noisyFill.filterMap Command.tidied?) =
        .ok (turns.filterMap Turn.tidied?, governor) ∧
      published (turns.filterMap Turn.tidied?) = published turns := by
  obtain ⟨start, turns, governor, hcreate, hhistory, hcommands, hcheck⟩ :=
    Governor.exists_history_of_replays {} noisyFill
      (fun turns governor =>
        turns.map (·.command.isMalformed) == [false, true, false, true] &&
        governor.costs.history.size "BTC" == 1) (by decide +kernel)
  rw [Bool.and_eq_true, beq_iff_eq, beq_iff_eq] at hcheck
  have hreplay := (history_iff_replay start governor turns).mp hhistory
  rw [hcommands] at hreplay
  obtain ⟨htidied, hignored⟩ := malformed_calls_ignored start noisyFill
  rw [hreplay] at htidied
  exact ⟨start, turns, governor, hcreate, hreplay, hcheck.1, hcheck.2, htidied,
    (hignored turns governor hreplay).1⟩

end ExposureControl
