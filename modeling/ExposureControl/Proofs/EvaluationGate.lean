import ExposureControl.Proofs.Bookings
import ExposureControl.Settings.Validity
import Mathlib.Data.List.DropRight

/-!
# When the drift monitor evaluates

A recorded trade is evaluated if the live window then holds enough trades.  Windows forget the
oldest trades, so that settings with too little room would leave the monitor idle for good; valid
settings leave room for twice the trades that are enough, or for all of them at least.  So the
monitor evaluates from the moment when enough live trades have come in since the last reset.
-/

namespace ExposureControl

theorem Settings.Valid.windowTrades_ge {settings : Settings} (hvalid : settings.Valid) :
    5 ≤ settings.drift.windowTrades := by
  have habsent := valid_iff.mp hvalid .windowTrades
  simpa [Flaw.present] using habsent

namespace Drift

variable {settings : Settings.Drift} {track : Track}

namespace Window

theorem Fresh.count_metrics {window : Window} (hfresh : window.Fresh) :
    window.metrics.count = window.trades.length := by
  rw [hfresh, Metrics.ofResults]
  split
  · next hempty =>
    rw [List.isEmpty_iff, List.map_eq_nil_iff] at hempty
    rw [hempty]
    rfl
  · exact List.length_map _

theorem lastOf_nil {α : Type} (n : Nat) : lastOf n ([] : List α) = [] := List.drop_nil

theorem length_lastOf {α : Type} (n : Nat) (xs : List α) :
    (lastOf n xs).length = min n xs.length := by
  simp only [lastOf, List.length_drop]
  omega

end Window

/-! ## The gate -/

namespace Monitor

/-- Hold the live window to expectations, and move accordingly. -/
def judge (settings : Settings.Drift) (monitor : Monitor) (gate : Gate) :
    Monitor × Gate × List Alert :=
  let breaches := breaches settings monitor.live.metrics monitor.shadow.metrics
  if breaches.any then monitor.escalate settings breaches gate
  else monitor.recover settings monitor.live.metrics gate

/-- Whether the live window holds the trades without which there is no evaluation. -/
def holdsEnough (settings : Settings.Drift) (monitor : Monitor) : Bool :=
  minTrades settings ≤ monitor.live.trades.length

theorem evaluate_eq {monitor : Monitor} (hfresh : monitor.live.Fresh) (gate : Gate) :
    monitor.evaluate settings gate =
      if monitor.holdsEnough settings then monitor.judge settings gate
      else (monitor, gate, []) := by
  simp only [evaluate, holdsEnough, hfresh.count_metrics, decide_eq_true_eq, ← Nat.not_le, ite_not]
  rfl

theorem fresh_push (trade : Trade) {monitor : Monitor} (hfresh : monitor.live.Fresh) :
    (monitor.push track trade).live.Fresh := by
  cases track with
  | live => exact Window.fresh_push trade monitor.live
  | shadow => exact hfresh

theorem stage_push (trade : Trade) (monitor : Monitor) :
    (monitor.push track trade).stage = monitor.stage := by
  cases track <;> rfl

end Monitor

namespace Watch

def pushed (watch : Watch) (track : Track) (trade : Trade) : Watch :=
  { watch with monitor := watch.monitor.push track trade }

/-- The watch after it held the live window to expectations, and what it did in public. -/
def judged (settings : Settings.Drift) (watch : Watch) : Watch × List Entry :=
  let (monitor, gate, alerts) := watch.monitor.judge settings watch.gate
  (⟨monitor, gate⟩, alerts.map .alert)

/-- A finite trade is pushed into its window, and the live window is judged if it then holds
enough. -/
theorem receive_trade_eq (henabled : settings.enabled = true) {result : Float}
    (hfinite : result.isFinite = true) {watch : Watch} (hfresh : watch.monitor.live.Fresh)
    (now : Instant) :
    watch.receive settings (.trade now track result) =
      let pushed := watch.pushed track ⟨now, result⟩
      if pushed.monitor.holdsEnough settings then pushed.judged settings else (pushed, []) := by
  dsimp only [receive, Monitor.record, pushed]
  rw [if_pos (Bool.and_eq_true_iff.mpr ⟨henabled, hfinite⟩),
    Monitor.evaluate_eq (Monitor.fresh_push _ hfresh)]
  split <;> rfl

theorem receive_trade_of_few (henabled : settings.enabled = true) {result : Float}
    (hfinite : result.isFinite = true) {watch : Watch} (hfresh : watch.monitor.live.Fresh)
    {now : Instant}
    (hfew : (watch.pushed track ⟨now, result⟩).monitor.holdsEnough settings = false) :
    watch.receive settings (.trade now track result) = (watch.pushed track ⟨now, result⟩, []) :=
  (receive_trade_eq henabled hfinite hfresh now).trans (if_neg (Bool.eq_false_iff.mp hfew))

/-- To push a finite trade does to the windows what its signal brings there. -/
theorem window_pushed {result : Float} (hfinite : result.isFinite = true) (watch : Watch)
    (now : Instant) (other : Track) :
    (watch.pushed track ⟨now, result⟩).monitor.window other =
      ((Signal.trade now track result).trade? other).toList.foldl
        (fun window trade => window.push trade) (watch.monitor.window other) := by
  simp only [Signal.trade?, Binary64.finite?, hfinite, if_true]
  cases track <;> cases other <;> rfl

end Watch

/-! ## What a window holds -/

def Signal.isReset : Signal → Bool
  | .reset => true
  | _ => false

def Signal.isPrune : Signal → Bool
  | .prune _ => true
  | _ => false

/-- The finite trades that signals brought to a track since the last reset, oldest first. -/
def tradesSinceReset (track : Track) (signals : List Signal) : List Trade :=
  (signals.rtakeWhile fun signal => !signal.isReset).filterMap (Signal.trade? track)

theorem tradesSinceReset_concat {signals : List Signal} {last : Signal}
    (hlast : last.isReset = false) :
    tradesSinceReset track (signals ++ [last]) =
      tradesSinceReset track signals ++ (last.trade? track).toList := by
  rw [tradesSinceReset, List.rtakeWhile_concat_pos _ _ _ (by rw [hlast]; rfl),
    List.filterMap_append]
  cases htrade : last.trade? track <;> simp [htrade, tradesSinceReset]

namespace Watch

/-- While trades only leave a window by a reset or for later ones, it holds the latest of those
that came in since the last reset. -/
theorem trades_run (henabled : settings.enabled = true) {start : Watch}
    (hempty : (start.monitor.window track).trades = []) {signals : List Signal}
    (hkept : ∀ signal ∈ signals, signal.isPrune = false) :
    ((start.run settings signals).1.monitor.window track).trades =
      Window.lastOf (start.monitor.window track).capacity (tradesSinceReset track signals) := by
  induction signals using List.reverseRecOn with
  | nil =>
    rw [run_nil, hempty]
    exact (Window.lastOf_nil _).symm
  | append_singleton signals last ih =>
    simp only [List.forall_mem_append, List.forall_mem_singleton] at hkept
    rw [run_append, run_singleton]
    cases hreset : last.isReset with
    | true =>
      obtain rfl : last = .reset := by cases last <;> first | rfl | cases hreset
      have hnone : tradesSinceReset track (signals ++ [.reset]) = [] := by
        rw [tradesSinceReset, List.rtakeWhile_concat_neg _ _ _ Bool.false_ne_true]
        rfl
      rw [hnone, Window.lastOf_nil]
      cases track <;> rfl
    | false =>
      have hkeeps : last.clears = false := by
        cases last with
        | reset => cases hreset
        | prune => cases hkept.2
        | _ => rfl
      have hcapacity := @capacity_run settings track signals start
      have hroom : ((start.run settings signals).1.monitor.window track).trades.length ≤
          ((start.run settings signals).1.monitor.window track).capacity := by
        rw [ih hkept.1, hcapacity]
        exact Window.length_lastOf_le _ _
      rw [window_receive henabled _ hkeeps, Window.trades_foldl_push _ hroom, hcapacity,
        ih hkept.1, Window.lastOf_lastOf_append, tradesSinceReset_concat hreset]

/-- A window with room for enough trades holds enough exactly when enough came in. -/
theorem holdsEnough_pushed_iff (henabled : settings.enabled = true) {start : Watch}
    (hempty : start.monitor.live.trades = [])
    (hroom : Monitor.minTrades settings ≤ start.monitor.live.capacity)
    {signals : List Signal} {now : Instant} {result : Float} (hfinite : result.isFinite = true)
    (hkept : ∀ signal ∈ signals, signal.isPrune = false) :
    ((start.run settings signals).1.pushed track ⟨now, result⟩).monitor.holdsEnough settings =
        true ↔
      Monitor.minTrades settings ≤
        (tradesSinceReset .live (signals ++ [.trade now track result])).length := by
  have hwindow : ((start.run settings signals).1.pushed track ⟨now, result⟩).monitor.live =
      (start.run settings (signals ++ [.trade now track result])).1.monitor.live := by
    rw [run_append, run_singleton]
    exact (window_pushed hfinite _ now .live).trans (window_receive henabled _ rfl).symm
  have hkept : ∀ signal ∈ signals ++ [.trade now track result], signal.isPrune = false :=
    List.forall_mem_append.mpr ⟨hkept, List.forall_mem_singleton.mpr rfl⟩
  have htrades : (start.run settings (signals ++ [.trade now track result])).1.monitor.live.trades =
      Window.lastOf start.monitor.live.capacity
        (tradesSinceReset .live (signals ++ [.trade now track result])) :=
    @trades_run settings .live henabled start hempty _ hkept
  rw [Monitor.holdsEnough, decide_eq_true_eq, hwindow, htrades, Window.length_lastOf, Nat.le_min]
  exact and_iff_right hroom

end Watch

end Drift

open Drift (Watch Signal Monitor)

theorem Governor.isPrune_eq_false_of_mem_signals {governor : Governor} {command : Command}
    {signal : Signal} (hprune : ∀ now, command ≠ .pruneExpired now)
    (hsignal : signal ∈ governor.signals command) : signal.isPrune = false := by
  by_cases hreset : command = .resetMonitor
  · subst hreset
    obtain rfl := List.mem_singleton.mp hsignal
    rfl
  · have hkeeps := clears_eq_false_of_step hreset hprune hsignal
    cases signal with
    | prune => cases hkeeps
    | _ => rfl

/-- What holds of the finite trades that reach the monitor along a history, those from the closes of
shadow positions among them. -/
structure EvaluatesFromEnough (settings : Settings.Drift) (start : Governor) (turns : List Turn)
    (governor : Governor) : Prop where
  /-- The signals are all that the monitor has acted on. -/
  run : start.watch.run settings (signalsOf turns) = (governor.watch, transcript turns)
  /-- The live window has room for enough trades. -/
  room : max 5 (settings.windowTrades / 2) ≤ governor.monitor.live.capacity
  /-- A trade is pushed into its window, and evaluated if the live window then holds enough. -/
  gate : ∀ earlier now track result later,
    signalsOf turns = earlier ++ .trade now track result :: later → result.isFinite = true →
      let before := (start.watch.run settings earlier).1
      let pushed := before.pushed track ⟨now, result⟩
      before.receive settings (.trade now track result) =
        if pushed.monitor.holdsEnough settings then pushed.judged settings else (pushed, [])
  /-- A trade changes the stage only if the live window then holds enough. -/
  moves : ∀ earlier now track result later,
    signalsOf turns = earlier ++ .trade now track result :: later → result.isFinite = true →
      let before := (start.watch.run settings earlier).1
      (before.receive settings (.trade now track result)).1.monitor.stage ≠
          before.monitor.stage →
        max 5 (settings.windowTrades / 2) ≤
          (before.pushed track ⟨now, result⟩).monitor.live.trades.length
  /-- As long as no trade is dropped for its age, the live window holds enough exactly when enough
  finite live trades have come in since the last reset. -/
  enough : (∀ turn ∈ turns, ∀ now, turn.command ≠ .pruneExpired now) →
    ∀ earlier now track result later,
      signalsOf turns = earlier ++ .trade now track result :: later → result.isFinite = true →
        let before := (start.watch.run settings earlier).1
        (before.pushed track ⟨now, result⟩).monitor.holdsEnough settings = true ↔
          max 5 (settings.windowTrades / 2) ≤
            (Drift.tradesSinceReset .live (earlier ++ [.trade now track result])).length

/-- Whatever is recorded, reset and pruned, in whatever order, valid settings keep the monitor from
being idle: it evaluates every finite trade from which on the live window holds enough, and that
is every one from which on enough live trades have come in. -/
theorem evaluates_from_enough {settings : Settings} {entropy : Seeding} {notifier : Notifier}
    {clock : Instant} {start governor : Governor} {turns : List Turn} (hvalid : settings.Valid)
    (henabled : settings.drift.enabled = true)
    (hcreate : Governor.create settings entropy notifier clock = .ok start)
    (hhistory : History start turns governor) :
    EvaluatesFromEnough settings.drift start turns governor := by
  have hrun := hhistory.run_watch
  rw [(Governor.create_eq_ok hcreate).1] at hrun
  have hwindow : start.monitor.live = .empty settings.drift.windowTrades :=
    Governor.window_create hcreate .live
  have hroom : Monitor.minTrades settings.drift ≤ start.monitor.live.capacity := by
    have hvalidRoom := hvalid.windowTrades_ge
    rw [hwindow]
    change max 5 (settings.drift.windowTrades / 2) ≤ max settings.drift.windowTrades 1
    omega
  have hfresh (earlier : List Signal) :
      (start.watch.run settings.drift earlier).1.monitor.live.Fresh := by
    refine @Watch.fresh_run _ .live earlier start.watch ?_
    change start.monitor.live.Fresh
    rw [hwindow]
    exact Drift.Window.fresh_empty _
  refine ⟨hrun, hroom.trans_eq (hhistory.capacity_window .live).symm, ?gate, ?moves, ?enough⟩
  case gate =>
    intro earlier now track result later _ hfinite
    exact Watch.receive_trade_eq henabled hfinite (hfresh earlier) now
  case moves =>
    intro earlier now track result later _ hfinite before hmoves
    by_contra hfew
    rw [Watch.receive_trade_of_few henabled hfinite (hfresh earlier)
      (decide_eq_false hfew)] at hmoves
    exact hmoves (Monitor.stage_push _ _)
  case enough =>
    intro hprune earlier now track result later hsplit hfinite
    have hempty : start.monitor.live.trades = [] := by rw [hwindow]; rfl
    refine Watch.holdsEnough_pushed_iff henabled hempty hroom hfinite ?_
    intro signal hsignal
    have hmem : signal ∈ signalsOf turns := hsplit ▸ List.mem_append_left _ hsignal
    obtain ⟨turn, hturn, hsent⟩ := exists_turn_of_mem_signalsOf hmem
    exact Governor.isPrune_eq_false_of_mem_signals (hprune turn hturn) hsent

/-- Neither an undefined result nor a shadow trade counts: the last of these trades is the fifth
that does, and the first that is evaluated. -/
theorem evaluates_from_enough_fifth :
    ∃ settings start turns governor, settings.Valid ∧ settings.drift.enabled = true ∧
      Governor.create settings 0 .log ⟨0⟩ = .ok start ∧ History start turns governor ∧
      (Drift.tradesSinceReset .live (signalsOf turns)).length = 5 ∧
      turns.map (·.before.monitor.stage) = List.replicate 7 .normal ∧
      governor.monitor.stage = .reduced ∧
      EvaluatesFromEnough settings.drift start turns governor := by
  let settings : Settings := { drift := { windowTrades := 5 } }
  have hvalid : settings.Valid := by decide +kernel
  let commands : List Command :=
    List.replicate 4 (.reportLive "BTC" (-2.5)) ++
      [.reportLive "BTC" Binary64.undefined, .reportShadow "BTC" 1.0, .reportLive "BTC" (-2.5)]
  obtain ⟨start, turns, governor, hcreate, hhistory, -, hcheck⟩ :=
    Governor.exists_history_of_replays settings commands
      (fun turns governor =>
        (Drift.tradesSinceReset .live (signalsOf turns)).length == 5 &&
        turns.map (·.before.monitor.stage) == List.replicate 7 .normal &&
        governor.monitor.stage == .reduced) (by decide +kernel)
  simp only [Bool.and_eq_true, beq_iff_eq] at hcheck
  obtain ⟨⟨hcount, hstages⟩, hstage⟩ := hcheck
  exact ⟨settings, start, turns, governor, hvalid, rfl, hcreate, hhistory, hcount, hstages, hstage,
    evaluates_from_enough hvalid rfl hcreate hhistory⟩

end ExposureControl
