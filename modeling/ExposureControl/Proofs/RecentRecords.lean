import ExposureControl.Proofs.Housekeeping

/-!
# Recent records and housekeeping

A period that is not negative puts its cutoff at or before the present, so that nothing as recent
as the present is dropped; a negative one puts it after the present.  Valid settings bound the
period of cost samples from below and no other one, and so they keep recent records exactly where
the other periods happen not to be negative, as far as there is anything to drop.
-/

namespace ExposureControl

/-- Whatever a filter drops, another one finds all that it is after, if the first keeps that. -/
theorem filter_filter_of_imp {α : Type} {kept recent : α → Bool} (xs : List α)
    (himp : ∀ x, recent x = true → kept x = true) :
    (xs.filter kept).filter recent = xs.filter recent := by
  rw [List.filter_filter]
  refine List.filter_congr fun x _ => ?_
  cases hrecent : recent x with
  | true => rw [himp x hrecent, Bool.and_self]
  | false => rw [Bool.false_and]

theorem kept_of_filter_filter {α : Type} {kept recent : α → Bool} {xs : List α} {x : α}
    (hsame : (xs.filter kept).filter recent = xs.filter recent) (hmem : x ∈ xs)
    (hrecent : recent x = true) : kept x = true := by
  have hfound : x ∈ (xs.filter kept).filter recent :=
    hsame ▸ List.mem_filter.mpr ⟨hmem, hrecent⟩
  exact (List.mem_filter.mp (List.mem_filter.mp hfound).1).2

namespace Instant

variable {now cutoff time : Instant} {n : Int}

theorem daysBefore_le_iff : now.daysBefore n ≤ now ↔ 0 ≤ n := by
  simp only [le_iff, daysBefore]
  omega

theorem minutesBefore_le_iff : now.minutesBefore n ≤ now ↔ 0 ≤ n := by
  simp only [le_iff, minutesBefore]
  omega

theorem decide_le_of_le (hcutoff : cutoff ≤ now) (hrecent : decide (now ≤ time) = true) :
    decide (cutoff ≤ time) = true := by
  rw [decide_eq_true_eq] at hrecent ⊢
  exact Int.le_trans hcutoff hrecent

end Instant

/-! ## The desk of a governor -/

/-- The call of the cost desk that a command makes when the clock shows a time. -/
def Command.deskCall? (clock : Instant) : Command → Option Costs.Call
  | .submit submission => some (.submit submission clock)
  | .fill order price spread filledAt => some (.fill order price spread filledAt clock)
  | .pruneExpired now => some (.prune now)
  | _ => none

def Turn.deskCall? (turn : Turn) : Option Costs.Call :=
  turn.command.deskCall? turn.before.clock

namespace Governor

theorem costs_forwardFills (fills : List Shadow.BookedFill) (governor : Governor) :
    (fills.foldl Governor.forwardFill governor).costs = governor.costs :=
  (SameBooks.forwardFills fills governor).costs

/-- A step answers the call that its command makes of the cost desk, and leaves the desk as it is
where it makes none. -/
theorem costs_of_step {governor next : Governor} {command : Command}
    {answer : Except Refusal Reply} (hstep : governor.step command = .ok (next, answer)) :
    match command.deskCall? governor.clock with
    | some call => ∃ given,
        governor.costs.perform governor.settings.costs call = .ok (next.costs, given)
    | none => next.costs = governor.costs := by
  cases command with
  | submit submission =>
    simp only [step, answering, Except.ok.injEq, Prod.mk.injEq] at hstep
    rw [← hstep.1]
    exact ⟨_, rfl⟩
  | fill order price spread filledAt =>
    simp only [step, answering, Governor.fill, Fault.bind_eq_ok_iff, Fault.pure_eq_ok_iff,
      Except.ok.injEq, Prod.mk.injEq, Prod.exists] at hstep
    obtain ⟨_, _, ⟨costs, sample, hfill, rfl, rfl⟩, rfl, -⟩ := hstep
    exact ⟨.filled sample, Fault.bind_eq_ok_iff.mpr ⟨_, hfill, rfl⟩⟩
  | pruneExpired now =>
    simp only [step, answering, Governor.pruneExpired, Fault.bind_eq_ok_iff, Fault.pure_eq_ok_iff,
      Except.ok.injEq, Prod.mk.injEq, Prod.exists] at hstep
    obtain ⟨_, _, ⟨costs, count, hprune, _, _, -, _, _, -, _, -, _, -, rfl, rfl⟩, rfl, -⟩ := hstep
    exact ⟨.pruned count, Fault.bind_eq_ok_iff.mpr ⟨_, hprune, rfl⟩⟩
  | priceTick symbol price =>
    simp only [step, answering, Governor.priceTick, Fault.bind_eq_ok_iff, Fault.pure_eq_ok_iff,
      Except.ok.injEq, Prod.mk.injEq, Prod.exists] at hstep
    obtain ⟨_, _, ⟨shadow, closed, fills, htick, rfl, rfl⟩, rfl, -⟩ := hstep
    exact costs_forwardFills fills _
  | reportShadow symbol result =>
    simp only [step, answering, Except.ok.injEq, Prod.mk.injEq] at hstep
    rw [← hstep.1, reportShadow]
    exact costs_forwardFills _ _
  | advance span =>
    simp only [step, answering, advance, Fault.bind_eq_ok_iff, Fault.pure_eq_ok_iff,
      Except.ok.injEq, Prod.mk.injEq] at hstep
    obtain ⟨_, ⟨_, -, rfl⟩, rfl, -⟩ := hstep
    rfl
  | setClock _ | registerShadow _ | restorePosition _ | reportLive _ _ | bookLive _ _
  | recordTradeResult _ _ | resetMonitor | setKillSwitch _ | setMode _ | clearAlerts =>
    simp only [step, answering, Except.ok.injEq, Prod.mk.injEq] at hstep
    rw [← hstep.1]
    rfl
  | _ =>
    rw [eq_withArena_of_step rfl (fun _ => Command.noConfusion) hstep]
    rfl

end Governor

theorem History.exists_desk_trace {start governor : Governor} {turns : List Turn}
    (hhistory : History start turns governor) :
    ∃ events, Trace (Costs.Desk.perform start.settings.costs) start.costs events governor.costs ∧
      events.map Event.call = turns.filterMap Turn.deskCall? := by
  induction hhistory with
  | start => exact ⟨[], .start, rfl⟩
  | @turn turns before next command answer past step ih =>
    obtain ⟨events, htrace, hcalls⟩ := ih
    have hdone := Governor.costs_of_step step
    rw [past.settings_eq] at hdone
    cases hcall : command.deskCall? before.clock with
    | none =>
      have hturn : Turn.deskCall? ⟨before, command, answer, next⟩ = none := hcall
      rw [hcall] at hdone
      exact ⟨events, hdone ▸ htrace, by rw [List.filterMap_cons_none hturn, hcalls]⟩
    | some call =>
      have hturn : Turn.deskCall? ⟨before, command, answer, next⟩ = some call := hcall
      rw [hcall] at hdone
      obtain ⟨given, hgiven⟩ := hdone
      exact ⟨_, htrace.event hgiven, by rw [List.filterMap_cons_some hturn, List.map_cons, hcalls]⟩

/-! ## Stores that stay empty -/

/-- A desk that is switched off never has an order that waits. -/
theorem Costs.find?_pending_of_disabled {settings : Settings.Costs}
    (hdisabled : settings.enabled = false) {start desk : Desk} {events : List Costs.Event}
    (hcreate : Desk.create settings = .ok start)
    (htrace : Trace (Desk.perform settings) start events desk) (order : String) :
    desk.pending.find? order = none := by
  induction htrace with
  | start =>
    simp only [Desk.create, Fault.bind_eq_ok_iff, Fault.pure_eq_ok_iff] at hcreate
    obtain ⟨_, -, rfl⟩ := hcreate
    rfl
  | @event events before next call answer past done ih =>
    cases call with
    | submit submission now =>
      simp only [Desk.perform, Desk.submit, hdisabled, Except.ok.injEq, Prod.mk.injEq] at done
      rw [← done.1, ih]
    | fill filled price spread filledAt now =>
      have hidle : before.fill settings filled price spread filledAt now = .ok (before, none) :=
        Desk.fill_of_idle (.inl (by rw [hdisabled, Bool.false_and]))
      simp only [Desk.perform, hidle, Fault.bind_eq_ok_iff, Fault.pure_eq_ok_iff, Except.ok.injEq,
        Prod.mk.injEq] at done
      obtain ⟨_, rfl, rfl, -⟩ := done
      exact ih
    | prune now =>
      simp only [Desk.perform, Desk.pruneExpired, Fault.bind_eq_ok_iff, Fault.pure_eq_ok_iff,
        Prod.mk.injEq, Prod.exists] at done
      obtain ⟨_, _, ⟨_, _, -, _, -, cutoff, -, rfl, -⟩, rfl, -⟩ := done
      exact (Table.find?_filter _ _ order).trans (by rw [ih, Option.filter_none])

namespace Drift

/-- A monitor that is switched off never has a trade in a window. -/
theorem Watch.trades_run_of_disabled {settings : Settings.Drift}
    (hdisabled : settings.enabled = false) {track : Track} (signals : List Signal) {watch : Watch}
    (hempty : (watch.monitor.window track).trades = []) :
    ((watch.run settings signals).1.monitor.window track).trades = [] := by
  induction signals generalizing watch with
  | nil => exact hempty
  | cons signal rest ih =>
    refine ih (?_ : ((watch.receive settings signal).1.monitor.window track).trades = [])
    cases signal with
    | trade now other result =>
      simp only [receive, Monitor.record, hdisabled, Bool.false_and]
      exact hempty
    | prune cutoff =>
      have hpruned : (watch.receive settings (.prune cutoff)).1.monitor.window track =
          ((watch.monitor.window track).pruneBefore cutoff).1 := by
        cases track <;> rfl
      rw [hpruned, Window.trades_pruneBefore, hempty, List.filter_nil]
    | reset => cases track <;> rfl
    | notice | setKillSwitch | setMode => exact hempty

end Drift

section

variable {settings : Settings} {entropy : Seeding} {notifier : Notifier} {clock now : Instant}
  {start governor : Governor} {turns : List Turn}

theorem History.find?_pending_of_disabled
    (hcreate : Governor.create settings entropy notifier clock = .ok start)
    (hhistory : History start turns governor) (hdisabled : settings.costs.enabled = false)
    (order : String) : governor.costs.pending.find? order = none := by
  obtain ⟨events, htrace, -⟩ := hhistory.exists_desk_trace
  rw [(Governor.create_eq_ok hcreate).1] at htrace
  simp only [Governor.create, Fault.bind_eq_ok_iff, Fault.pure_eq_ok_iff] at hcreate
  obtain ⟨costs, hcosts, _, -, rfl⟩ := hcreate
  exact Costs.find?_pending_of_disabled hdisabled hcosts htrace order

theorem History.trades_of_disabled
    (hcreate : Governor.create settings entropy notifier clock = .ok start)
    (hhistory : History start turns governor) (hdisabled : settings.drift.enabled = false)
    (track : Drift.Track) : (governor.monitor.window track).trades = [] := by
  have hempty : (start.watch.monitor.window track).trades = [] := by
    change (start.monitor.window track).trades = []
    rw [Governor.window_create hcreate]
    rfl
  have hrun := hhistory.run_watch
  rw [(Governor.create_eq_ok hcreate).1] at hrun
  have hkept := Drift.Watch.trades_run_of_disabled hdisabled (signalsOf turns) hempty
  rw [hrun] at hkept
  exact hkept

end

/-! ## What is recent is kept -/

namespace Governor

/-- What is as recent as a time or more is left where it is: samples by the time of their fill,
orders by that of their submission, trades and pulls by when they were recorded, and positions by
when they were closed. -/
structure KeepsFrom (now : Instant) (before after : Governor) : Prop where
  samples : ∀ symbol,
    ((after.costs.history.ofSymbol symbol).filter fun sample => decide (now ≤ sample.filledAt)) =
      (before.costs.history.ofSymbol symbol).filter fun sample => decide (now ≤ sample.filledAt)
  pending : ∀ order waiting, before.costs.pending.find? order = some waiting →
    now ≤ waiting.submittedAt → after.costs.pending.find? order = some waiting
  trades : ∀ track,
    ((after.monitor.window track).trades.filter fun trade => decide (now ≤ trade.recordedAt)) =
      (before.monitor.window track).trades.filter fun trade => decide (now ≤ trade.recordedAt)
  positions : ∀ symbol,
    ((after.shadow.book.ofSymbol symbol).filter fun position =>
      position.closedAt.any fun closedAt => decide (now ≤ closedAt)) =
        (before.shadow.book.ofSymbol symbol).filter fun position =>
          position.closedAt.any fun closedAt => decide (now ≤ closedAt)
  pulls : ∀ symbol,
    ((after.registry.historyOf symbol).filter fun pull => decide (now ≤ pull.loggedAt)) =
      (before.registry.historyOf symbol).filter fun pull => decide (now ≤ pull.loggedAt)
  /-- The pull of a decision is still found. -/
  located : before.registry.DistinctDecisions → ∀ decision found,
    before.registry.locate? decision = some found → now ≤ found.2.loggedAt →
      after.registry.locate? decision = some found

end Governor

namespace Settings

/-- Whether housekeeping is ever carried out: a governor can be set up, and there is a time from
which all periods can be looked back. -/
def Prunes (settings : Settings) : Prop :=
  settings.drift.windowTrades * Drift.Window.tradeBytes ≤ Drift.Window.maxBytes ∧
    ∃ now : Instant, ∀ retention ∈ settings.retentions,
      ∃ cutoff, retention >>= now.before = .ok cutoff

/-- Whether housekeeping leaves what is as recent as the time from which it looks back, in every
governor that can be reached. -/
def KeepsRecent (settings : Settings) : Prop :=
  ∀ {entropy notifier clock start turns governor now next removals},
    Governor.create settings entropy notifier clock = .ok start → History start turns governor →
      governor.pruneExpired now = .ok (next, removals) → Governor.KeepsFrom now governor next

/-- Whether the periods that validity leaves unbounded are not negative, those of a component that
can be switched off if it is on. -/
structure LooksBack (settings : Settings) : Prop where
  pending : settings.costs.enabled = true → 0 ≤ settings.costs.pendingMinutes
  trades : settings.drift.enabled = true → 0 ≤ settings.drift.retentionDays
  positions : 0 ≤ settings.shadow.closedRetentionDays
  pulls : 0 ≤ settings.selection.pullRetentionDays

theorem Valid.costRetention_pos {settings : Settings} (hvalid : settings.Valid) :
    0 < settings.costs.retentionDays := by
  have habsent := valid_iff.mp hvalid .costRetention
  simpa [Flaw.present] using habsent

end Settings

namespace Governor

variable {settings : Settings} {entropy : Seeding} {notifier : Notifier} {clock now : Instant}
  {start governor : Governor} {turns : List Turn}

/-- In every governor that can be reached, housekeeping is carried out up to the cutoffs of the
settings wherever these can be represented. -/
theorem pruneExpired_of_history
    (hcreate : create settings entropy notifier clock = .ok start)
    (hhistory : History start turns governor)
    (hcutoffs : ∀ retention ∈ settings.retentions,
      ∃ cutoff, retention >>= now.before = .ok cutoff) :
    governor.pruneExpired now = .ok (governor.pruneFrom (settings.cutoffs now)) := by
  obtain rfl : governor.settings = settings :=
    hhistory.settings_eq.trans (create_eq_ok hcreate).1
  exact pruneExpired_eq (hhistory.retention_eq ▸ (create_books hcreate).2) hcutoffs

theorem keepsFrom_pruneFrom (hvalid : settings.Valid) (hlooks : settings.LooksBack)
    (hcreate : create settings entropy notifier clock = .ok start)
    (hhistory : History start turns governor) :
    KeepsFrom now governor (governor.pruneFrom (settings.cutoffs now)).1 := by
  constructor
  case samples =>
    intro symbol
    have hcutoff : (settings.cutoffs now).samples ≤ now :=
      Instant.daysBefore_le_iff.mpr (Int.le_of_lt hvalid.costRetention_pos)
    have hkept := Table.find?_filterLists
      (fun sample => decide ((settings.cutoffs now).samples ≤ sample.filledAt))
      governor.costs.history.samples (Costs.symbolKey symbol)
    exact (congrArg (List.filter _) hkept).trans
      (filter_filter_of_imp _ fun _ => Instant.decide_le_of_le hcutoff)
  case pending =>
    intro order waiting hwaiting hrecent
    cases henabled : settings.costs.enabled with
    | false =>
      rw [hhistory.find?_pending_of_disabled hcreate henabled] at hwaiting
      cases hwaiting
    | true =>
      have hcutoff : (settings.cutoffs now).pending ≤ now :=
        Instant.minutesBefore_le_iff.mpr (hlooks.pending henabled)
      refine (Table.find?_filter _ _ order).trans ?_
      rw [hwaiting, Option.filter_some,
        if_pos (Instant.decide_le_of_le hcutoff (decide_eq_true hrecent))]
  case trades =>
    intro track
    rw [Governor.trades_pruneFrom]
    cases henabled : settings.drift.enabled with
    | false => rw [hhistory.trades_of_disabled hcreate henabled, List.filter_nil]
    | true =>
      have hcutoff : (settings.cutoffs now).trades ≤ now :=
        Instant.daysBefore_le_iff.mpr (hlooks.trades henabled)
      exact filter_filter_of_imp _ fun _ => Instant.decide_le_of_le hcutoff
  case positions =>
    intro symbol
    have hcutoff : (settings.cutoffs now).positions ≤ now :=
      Instant.daysBefore_le_iff.mpr hlooks.positions
    have hkept : ((governor.pruneFrom (settings.cutoffs now)).1.shadow.book.ofSymbol symbol) =
        (governor.shadow.book.ofSymbol symbol).filter
          (Shadow.Book.outlives (settings.cutoffs now).positions) :=
      Shadow.Book.ofSymbol_pruneBefore _
    refine (congrArg (List.filter _) hkept).trans
      (filter_filter_of_imp _ fun position hrecent => ?_)
    obtain ⟨closedAt, hclosed, hrecent⟩ := (Option.any_eq_true _ _).mp hrecent
    rw [Shadow.Book.outlives, hclosed, Option.all_some, Instant.decide_le_of_le hcutoff hrecent,
      Bool.or_true]
  case pulls =>
    intro symbol
    have hcutoff : (settings.cutoffs now).pulls ≤ now :=
      Instant.daysBefore_le_iff.mpr hlooks.pulls
    have hkept :=
      Registry.historyOf_prunePulls (settings.cutoffs now).pulls governor.registry symbol
    refine (congrArg (List.filter _) hkept).trans (filter_filter_of_imp _ fun pull hrecent => ?_)
    rw [Instant.not_decide_lt]
    exact Instant.decide_le_of_le hcutoff hrecent
  case located =>
    intro hdistinct decision found hfound hrecent
    have hcutoff : (settings.cutoffs now).pulls ≤ now :=
      Instant.daysBefore_le_iff.mpr hlooks.pulls
    refine (Registry.locate?_prunePulls hdistinct _ decision).trans ?_
    rw [hfound, Option.filter_some,
      if_pos (Instant.decide_le_of_le hcutoff (decide_eq_true hrecent))]

end Governor

/-! ## What a negative period drops -/

section

variable {settings : Settings} {entropy : Seeding} {notifier : Notifier} {clock now : Instant}
  {start : Governor}

/-- Where recent records are kept, so are those of any history up to the cutoffs. -/
theorem Settings.KeepsRecent.keepsFrom (hkeeps : settings.KeepsRecent)
    (hcreate : Governor.create settings entropy notifier clock = .ok start)
    (hcutoffs : ∀ retention ∈ settings.retentions,
      ∃ cutoff, retention >>= now.before = .ok cutoff)
    {turns : List Turn} {governor : Governor} (hhistory : History start turns governor) :
    Governor.KeepsFrom now governor (governor.pruneFrom (settings.cutoffs now)).1 :=
  hkeeps hcreate hhistory (Governor.pruneExpired_of_history hcreate hhistory hcutoffs)

variable (hkept : ∀ {turns governor}, History start turns governor →
  Governor.KeepsFrom now governor (governor.pruneFrom (settings.cutoffs now)).1)

include hkept

theorem pendingMinutes_nonneg_of_kept (henabled : settings.costs.enabled = true)
    (hcreate : Governor.create settings entropy notifier clock = .ok start) :
    0 ≤ settings.costs.pendingMinutes := by
  let submission : Costs.Submission :=
    ⟨some "order", "BTC", .buy, .market, none, none, none, some now⟩
  let waiting : Costs.PendingOrder := ⟨"BTC", .buy, .market, none, none, none, now⟩
  let governor := start.submit submission
  have hhistory : History start [⟨start, .submit submission, .ok .done, governor⟩] governor :=
    .turn .start rfl
  have hsettings := (Governor.create_eq_ok hcreate).1
  have hwaiting : governor.costs.pending.find? "order" = some waiting := by
    dsimp only [governor, Governor.submit, Costs.Desk.submit, submission]
    rw [hsettings, henabled]
    exact Table.find?_insert_self _ _ _
  have hfound := (hkept hhistory).pending "order" _ hwaiting (Int.le_refl _)
  have hfiltered := (Table.find?_filter _ _ "order").symm.trans hfound
  rw [hwaiting, Option.filter_some] at hfiltered
  split at hfiltered
  · next hcutoff => exact Instant.minutesBefore_le_iff.mp (of_decide_eq_true hcutoff)
  · cases hfiltered

theorem tradeRetention_nonneg_of_kept (henabled : settings.drift.enabled = true)
    (hcreate : Governor.create settings entropy notifier clock = .ok start) :
    0 ≤ settings.drift.retentionDays := by
  let ready := { start with clock := now }
  let governor := ready.recordTradeResult .live 0.0
  have hhistory : History start [⟨ready, .recordTradeResult .live 0.0, .ok .done, governor⟩,
      ⟨start, .setClock now, .ok .done, ready⟩] governor :=
    .turn (.turn .start rfl) rfl
  have hreceived : ∀ signal : Drift.Signal, signal.clears = false →
      (ready.watch.receive ready.settings.drift signal).1.monitor.window .live =
        (signal.trade? .live).toList.foldl (fun window trade => window.push trade)
          (ready.watch.monitor.window .live) :=
    fun signal => Drift.Watch.window_receive
      ((congrArg (·.drift.enabled) (Governor.create_eq_ok hcreate).1).trans henabled) ready.watch
  have hwindow : governor.monitor.window .live =
      (start.monitor.window .live).push ⟨now, 0.0⟩ := hreceived (.trade now .live 0.0) rfl
  have htrade : (⟨now, 0.0⟩ : Drift.Trade) ∈ (governor.monitor.window .live).trades := by
    have hroom : [(⟨now, 0.0⟩ : Drift.Trade)].length ≤ max settings.drift.windowTrades 1 :=
      Nat.le_max_right _ _
    rw [hwindow, Governor.window_create hcreate, Drift.Window.trades_push]
    exact (Drift.Window.lastOf_eq_self hroom).symm ▸ List.mem_singleton_self _
  have hkeptTrades := (hkept hhistory).trades .live
  rw [Governor.trades_pruneFrom] at hkeptTrades
  have hcutoff := kept_of_filter_filter hkeptTrades htrade
    (decide_eq_true (Int.le_refl _))
  exact Instant.daysBefore_le_iff.mp (of_decide_eq_true hcutoff)

theorem closedRetention_nonneg_of_kept : 0 ≤ settings.shadow.closedRetentionDays := by
  let ticket : Shadow.Ticket := ⟨"BTC", .buy, 100.0, 1.0, 90.0, 110.0⟩
  let position := (Shadow.Position.create (.given ⟨1⟩) ticket now).closedAtPrice 110.0 now
  let governor := start.restorePosition position
  have hhistory : History start [⟨start, .restorePosition position, .ok .done, governor⟩]
      governor := .turn .start rfl
  have hposition : position ∈ governor.shadow.book.ofSymbol "BTC" := by
    change position ∈ (start.shadow.restore position).book.ofSymbol "BTC"
    rw [(Shadow.Engine.restore_eq position start.shadow).1, Shadow.Book.ofSymbol_restore]
    exact List.mem_append_right _ (List.mem_singleton_self _)
  have hkeptPositions := (hkept hhistory).positions "BTC"
  have hpruned : (governor.pruneFrom (settings.cutoffs now)).1.shadow.book.ofSymbol "BTC" =
      (governor.shadow.book.ofSymbol "BTC").filter
        (Shadow.Book.outlives (settings.cutoffs now).positions) :=
    Shadow.Book.ofSymbol_pruneBefore _
  have hcutoff := kept_of_filter_filter
    ((congrArg (List.filter _) hpruned.symm).trans hkeptPositions) hposition
    (decide_eq_true (Int.le_refl _))
  exact Instant.daysBefore_le_iff.mp (of_decide_eq_true hcutoff)

theorem pullRetention_nonneg_of_kept
    (hcreate : Governor.create settings entropy notifier clock = .ok start) :
    0 ≤ settings.selection.pullRetentionDays := by
  let arm : Arm := .create (.given ⟨1⟩) ⟨"BTC", "UP", .buy⟩ ⟨.given ⟨9⟩, .baseline⟩ now
  let registry := Registry.empty.restoreArm arm
  let pull := registry.nextPull arm .empty (.given "decision") now
  let logged := registry.withPull (arm.pulled ⟨0⟩ now) pull
  let ready := { start with arena := { start.arena with registry } }
  let governor := { start with arena := { start.arena with registry := logged } }
  have hrestored : start.step (.restoreArm arm) = .ok (ready, .ok .done) := by
    have hempty : start.registry = .empty :=
      congrArg Arena.registry (Governor.create_eq_ok hcreate).2.2
    simp only [ready, registry, ← hempty]
    rfl
  have hlogged : ready.step (.logPull arm.id (.given "decision") .empty ⟨0⟩ now) =
      .ok (governor, .ok (.pull (some pull))) := by
    have hsound : registry.Sound := Registry.sound_restoreArm Registry.sound_empty ⟨nofun, nofun⟩
    have hroom : 0 + 1 < Word64.size := by decide
    have hlog := Registry.logPull_of_lt hsound (Table.find?_insert_self _ _ _) hroom .empty
      (.given "decision") ⟨0⟩ now
    exact Fault.bind_eq_ok_iff.mpr
      ⟨(governor, .ok pull), Governor.tryRegistry_eq_ok_iff.mpr ⟨logged, hlog, rfl⟩, rfl⟩
  have hhistory := (History.start.turn hrestored).turn hlogged
  have hpull : pull ∈ governor.registry.historyOf "BTC" := by
    change pull ∈ logged.historyOf "BTC"
    rw [Registry.historyOf_withPull]
    exact List.mem_append_right _ (List.mem_singleton_self _)
  have hkeptPulls := (hkept hhistory).pulls "BTC"
  have hpruned := Registry.historyOf_prunePulls (settings.cutoffs now).pulls governor.registry "BTC"
  have hcutoff := kept_of_filter_filter
    ((congrArg (List.filter _) hpruned.symm).trans hkeptPulls) hpull
    (decide_eq_true (Int.le_refl _))
  rw [Instant.not_decide_lt] at hcutoff
  exact Instant.daysBefore_le_iff.mp (of_decide_eq_true hcutoff)

end

/-- Under valid settings housekeeping keeps what is recent exactly where no period is negative,
unless it is never carried out or has nothing to drop. -/
theorem keepsRecent_iff_looksBack {settings : Settings} (hvalid : settings.Valid) :
    settings.KeepsRecent ↔ (settings.Prunes → settings.LooksBack) := by
  constructor
  · rintro hkeeps ⟨hroom, now, hcutoffs⟩
    have hretention : ∃ retention, Span.days settings.costs.retentionDays = .ok retention := by
      obtain ⟨_, hbefore⟩ := hcutoffs _ List.mem_cons_self
      obtain ⟨span, hspan, -⟩ := Fault.bind_eq_ok_iff.mp hbefore
      exact ⟨span, hspan⟩
    obtain ⟨start, hcreate⟩ : ∃ start, Governor.create settings 0 .log now = .ok start :=
      Governor.create_eq_ok_iff.mpr ⟨hretention, hroom⟩
    have hkept : ∀ {turns governor}, History start turns governor →
        Governor.KeepsFrom now governor (governor.pruneFrom (settings.cutoffs now)).1 :=
      fun hhistory => hkeeps.keepsFrom hcreate hcutoffs hhistory
    exact ⟨fun henabled => pendingMinutes_nonneg_of_kept hkept henabled hcreate,
      fun henabled => tradeRetention_nonneg_of_kept hkept henabled hcreate,
      closedRetention_nonneg_of_kept hkept, pullRetention_nonneg_of_kept hkept hcreate⟩
  · intro hlooks entropy notifier clock start turns governor now next removals hcreate hhistory
      hprune
    have hcutoffs := Governor.lookBack_of_pruneExpired hprune
    rw [hhistory.retentions_eq hcreate] at hcutoffs
    have hroom := (Governor.create_eq_ok_iff.mp ⟨start, hcreate⟩).2
    rw [Governor.pruneExpired_of_history hcreate hhistory hcutoffs] at hprune
    obtain ⟨rfl, -⟩ := Prod.mk.inj (Except.ok.inj hprune)
    exact Governor.keepsFrom_pruneFrom hvalid (hlooks ⟨hroom, now, hcutoffs⟩) hcreate hhistory

/-- The shortest periods that keep what is recent: a day for cost samples, and none otherwise. -/
def Settings.shortestPeriods : Settings :=
  { selection := { pullRetentionDays := 0 }
    shadow := { closedRetentionDays := 0 }
    drift := { retentionDays := 0 }
    costs := { retentionDays := 1, pendingMinutes := 0 } }

/-- Periods of zero still keep what is as recent as the present. -/
theorem keepsRecent_shortestPeriods :
    Settings.shortestPeriods.Valid ∧ Settings.shortestPeriods.KeepsRecent := by
  have hvalid : Settings.shortestPeriods.Valid := by decide +kernel
  refine ⟨hvalid, (keepsRecent_iff_looksBack hvalid).mpr fun _ => ?_⟩
  exact ⟨fun _ => by decide, fun _ => by decide, by decide, by decide⟩

/-- Settings under which trades are dropped up to a day after the present. -/
def Settings.forgetsAhead : Settings := { drift := { retentionDays := -1 } }

/-- A negative period is valid, and drops a trade that was recorded at the very time from which
housekeeping looks back. -/
theorem negative_period_drops_present_trade :
    Settings.forgetsAhead.Valid ∧ ∃ start turns governor next,
      Governor.create .forgetsAhead 0 .log ⟨0⟩ = .ok start ∧ History start turns governor ∧
      governor.monitor.live.trades.map Drift.Trade.recordedAt = [⟨0⟩] ∧
      governor.pruneExpired ⟨0⟩ = .ok (next, { costs := 0, drift := 1, shadow := 0, pulls := 0 }) ∧
      ¬ Governor.KeepsFrom ⟨0⟩ governor next := by
  have hvalid : Settings.forgetsAhead.Valid := by decide +kernel
  obtain ⟨start, turns, governor, hcreate, hhistory, -, hcheck⟩ :=
    Governor.exists_history_of_replays .forgetsAhead [.reportLive "BTC" 1.0]
      (fun _ governor =>
        governor.monitor.live.trades.map Drift.Trade.recordedAt == [⟨0⟩] &&
        match governor.pruneExpired ⟨0⟩ with
        | .error _ => false
        | .ok (next, removals) =>
          removals == { costs := 0, drift := 1, shadow := 0, pulls := 0 } &&
          next.monitor.live.trades.isEmpty) (by decide +kernel)
  rw [Bool.and_eq_true, beq_iff_eq] at hcheck
  obtain ⟨htrades, hcheck⟩ := hcheck
  cases hprune : governor.pruneExpired ⟨0⟩ with
  | error fault => simp [hprune] at hcheck
  | ok done =>
    obtain ⟨next, removals⟩ := done
    simp only [hprune, Bool.and_eq_true, beq_iff_eq, List.isEmpty_iff] at hcheck
    obtain ⟨rfl, hnone⟩ := hcheck
    refine ⟨hvalid, start, turns, governor, next, hcreate, hhistory, htrades, hprune, ?_⟩
    intro hkept
    have hsame := hkept.trades .live
    change (next.monitor.live.trades.filter _) = governor.monitor.live.trades.filter _ at hsame
    obtain ⟨trade, htrade, hrecorded⟩ : ∃ trade, governor.monitor.live.trades = [trade] ∧
        trade.recordedAt = ⟨0⟩ := by
      simpa [List.map_eq_singleton_iff] using htrades
    rw [hnone, htrade, List.filter_nil, List.filter_singleton, hrecorded] at hsame
    cases hsame

end ExposureControl
