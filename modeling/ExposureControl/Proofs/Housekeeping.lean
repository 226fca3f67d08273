import ExposureControl.Proofs.NeverStops
import ExposureControl.Proofs.Pruning

/-!
# Housekeeping

One pass of housekeeping goes through five stores, each with a cutoff of its own.  From each it
drops what lies strictly before the cutoff, and counts that; whatever is left keeps its order, and
nothing else in the governor changes.  A second pass as seen from the same time finds nothing.
-/

namespace ExposureControl

/-! ## Cutoffs -/

namespace Instant

def daysBefore (n : Int) (t : Instant) : Instant := ⟨t.micros - n * 86400000000⟩

def minutesBefore (n : Int) (t : Instant) : Instant := ⟨t.micros - n * 60000000⟩

variable {now cutoff : Instant} {n : Int}

theorem eq_of_checked_before (h : Span.checked n >>= now.before = .ok cutoff) :
    cutoff = ⟨now.micros - n * 1000⟩ := by
  obtain ⟨span, hspan, hbefore⟩ := Fault.bind_eq_ok_iff.mp h
  unfold Span.checked at hspan
  split at hspan
  · obtain rfl := Except.ok.inj hspan
    exact ((checked_eq_ok_iff _ _).mp hbefore).1
  · cases hspan

theorem eq_daysBefore (h : Span.days n >>= now.before = .ok cutoff) :
    cutoff = now.daysBefore n := by
  rw [eq_of_checked_before h, daysBefore, Instant.mk.injEq]
  omega

theorem eq_minutesBefore (h : Span.minutes n >>= now.before = .ok cutoff) :
    cutoff = now.minutesBefore n := by
  rw [eq_of_checked_before h, minutesBefore, Instant.mk.injEq]
  omega

end Instant

/-- The times up to which the five stores are pruned. -/
structure Cutoffs where
  samples : Instant
  pending : Instant
  trades : Instant
  positions : Instant
  pulls : Instant

def Settings.cutoffs (settings : Settings) (now : Instant) : Cutoffs where
  samples := now.daysBefore settings.costs.retentionDays
  pending := now.minutesBefore settings.costs.pendingMinutes
  trades := now.daysBefore settings.drift.retentionDays
  positions := now.daysBefore settings.shadow.closedRetentionDays
  pulls := now.daysBefore settings.selection.pullRetentionDays

namespace Governor

/-- A pass of housekeeping up to given times, with what it removes. -/
def pruneFrom (cutoffs : Cutoffs) (governor : Governor) : Governor × Removals :=
  let (costs, removedCosts) := governor.costs.pruneFrom cutoffs.samples cutoffs.pending
  let (monitor, removedDrift) := governor.monitor.pruneBefore cutoffs.trades
  let (book, removedShadow) := governor.shadow.book.pruneBefore cutoffs.positions
  let (registry, removedPulls) := governor.registry.prunePulls cutoffs.pulls
  ({ governor with
      costs
      monitor
      shadow := { governor.shadow with book }
      arena := { governor.arena with registry } },
    ⟨removedCosts, removedDrift, removedShadow, removedPulls⟩)

/-- Where all cutoffs can be represented, housekeeping is carried out up to them. -/
theorem pruneExpired_eq {governor : Governor} {now : Instant}
    (hretention : Span.days governor.settings.costs.retentionDays =
      .ok governor.costs.history.retention)
    (hcutoffs : ∀ retention ∈ governor.settings.retentions,
      ∃ cutoff, retention >>= now.before = .ok cutoff) :
    governor.pruneExpired now = .ok (governor.pruneFrom (governor.settings.cutoffs now)) := by
  simp only [Settings.retentions, List.forall_mem_cons, List.not_mem_nil, false_imp_iff,
    implies_true, and_true] at hcutoffs
  obtain ⟨⟨samples, hsamples⟩, ⟨pending, hpending⟩, ⟨trades, htrades⟩, ⟨positions, hpositions⟩,
    ⟨pulls, hpulls⟩⟩ := hcutoffs
  obtain rfl := Instant.eq_daysBefore hsamples
  obtain rfl := Instant.eq_minutesBefore hpending
  obtain rfl := Instant.eq_daysBefore htrades
  obtain rfl := Instant.eq_daysBefore hpositions
  obtain rfl := Instant.eq_daysBefore hpulls
  rw [hretention] at hsamples
  obtain ⟨span, hspan, hbefore⟩ := Fault.bind_eq_ok_iff.mp hpulls
  exact Fault.bind_eq_ok_iff.mpr ⟨_, Costs.Desk.pruneExpired_of_cutoffs hsamples hpending,
    Fault.bind_eq_ok_iff.mpr ⟨_, Drift.Monitor.pruneExpired_of_cutoff htrades,
      Fault.bind_eq_ok_iff.mpr ⟨_, Shadow.Engine.pruneExpired_of_cutoff hpositions,
        Fault.bind_eq_ok_iff.mpr ⟨span, hspan, Fault.bind_eq_ok_iff.mpr ⟨_, hbefore, rfl⟩⟩⟩⟩⟩

theorem pruneFrom_pruneFrom (cutoffs : Cutoffs) (governor : Governor) :
    (governor.pruneFrom cutoffs).1.pruneFrom cutoffs =
      ((governor.pruneFrom cutoffs).1, .none) := by
  simp only [pruneFrom, registry, Costs.Desk.pruneFrom_pruneFrom,
    Drift.Monitor.pruneBefore_pruneBefore, Shadow.Book.pruneBefore_pruneBefore,
    Registry.prunePulls_prunePulls]
  rfl

/-- A governor with the stores of another one that housekeeping prunes: pending orders, samples,
the trades of both windows with their summaries, positions, and pulls with their decisions. -/
def withStores (governor stores : Governor) : Governor :=
  { governor with
    costs := {
      pending := stores.costs.pending
      history := { governor.costs.history with samples := stores.costs.history.samples } }
    monitor := { governor.monitor with
      live := { governor.monitor.live with
        trades := stores.monitor.live.trades
        metrics := stores.monitor.live.metrics }
      shadow := { governor.monitor.shadow with
        trades := stores.monitor.shadow.trades
        metrics := stores.monitor.shadow.metrics } }
    shadow := { governor.shadow with book := stores.shadow.book }
    arena := { governor.arena with
      registry := { governor.registry with
        histories := stores.registry.histories
        decisions := stores.registry.decisions } } }

/-- What a pass of housekeeping up to given times leaves of a governor, and what it removes. -/
structure Pruned (cutoffs : Cutoffs) (before after : Governor) (removals : Removals) : Prop where
  samples : ∀ symbol, after.costs.history.ofSymbol symbol =
    (before.costs.history.ofSymbol symbol).filter fun sample =>
      decide (cutoffs.samples ≤ sample.filledAt)
  pending : ∀ order, after.costs.pending.find? order =
    (before.costs.pending.find? order).filter fun waiting =>
      decide (cutoffs.pending ≤ waiting.submittedAt)
  trades : ∀ track, (after.monitor.window track).trades =
    (before.monitor.window track).trades.filter fun trade =>
      decide (cutoffs.trades ≤ trade.recordedAt)
  /-- Windows are summarised by what was kept. -/
  metrics : ∀ track, (after.monitor.window track).metrics =
    .ofResults (((before.monitor.window track).trades.filter fun trade =>
      decide (cutoffs.trades ≤ trade.recordedAt)).map Drift.Trade.result)
  positions : ∀ symbol, after.shadow.book.ofSymbol symbol =
    (before.shadow.book.ofSymbol symbol).filter fun position =>
      position.isOpen || position.closedAt.all fun closedAt =>
        decide (cutoffs.positions ≤ closedAt)
  opened : ∀ symbol, (after.shadow.book.ofSymbol symbol).filter Shadow.Position.isOpen =
    (before.shadow.book.ofSymbol symbol).filter Shadow.Position.isOpen
  symbols : after.shadow.book.symbols = before.shadow.book.symbols
  pulls : ∀ symbol, after.registry.historyOf symbol =
    (before.registry.historyOf symbol).filter fun pull => decide (cutoffs.pulls ≤ pull.loggedAt)
  /-- A decision is found as long as its pull is kept. -/
  located : ∀ decision, after.registry.locate? decision =
    (before.registry.locate? decision).filter fun found =>
      decide (cutoffs.pulls ≤ found.2.loggedAt)
  /-- Nothing else changes: neither stage, multiplier, mode, kill switch and count of downgrades,
  nor totals and closed trades, nor the statistics of arms and the ledgers. -/
  others : after = before.withStores after
  /-- What is strictly older than its cutoff is counted for its component. -/
  removed : removals = {
    costs :=
      (before.costs.history.samples.values.flatten.countP fun sample =>
        decide (sample.filledAt < cutoffs.samples)) +
      before.costs.pending.values.countP fun waiting =>
        decide (waiting.submittedAt < cutoffs.pending)
    drift :=
      (before.monitor.live.trades.countP fun trade => decide (trade.recordedAt < cutoffs.trades)) +
      before.monitor.shadow.trades.countP fun trade => decide (trade.recordedAt < cutoffs.trades)
    shadow := before.shadow.book.positions.values.flatten.countP fun position =>
      !position.isOpen && position.closedAt.any fun closedAt =>
        decide (closedAt < cutoffs.positions)
    pulls := before.registry.histories.values.flatten.countP fun pull =>
      decide (pull.loggedAt < cutoffs.pulls) }

theorem window_pruneFrom (cutoffs : Cutoffs) (governor : Governor) (track : Drift.Track) :
    (governor.pruneFrom cutoffs).1.monitor.window track =
      ((governor.monitor.window track).pruneBefore cutoffs.trades).1 := by
  cases track <;> rfl

theorem trades_pruneFrom (cutoffs : Cutoffs) (governor : Governor) (track : Drift.Track) :
    ((governor.pruneFrom cutoffs).1.monitor.window track).trades =
      (governor.monitor.window track).trades.filter fun trade =>
        decide (cutoffs.trades ≤ trade.recordedAt) := by
  rw [window_pruneFrom, Drift.Window.trades_pruneBefore]

theorem pruned_pruneFrom (cutoffs : Cutoffs) {governor : Governor}
    (hdistinct : governor.registry.DistinctDecisions)
    (hfresh : ∀ track, (governor.monitor.window track).Fresh) :
    Pruned cutoffs governor (governor.pruneFrom cutoffs).1 (governor.pruneFrom cutoffs).2 := by
  have hpositions : ∀ symbol, (governor.pruneFrom cutoffs).1.shadow.book.ofSymbol symbol =
      (governor.shadow.book.ofSymbol symbol).filter (Shadow.Book.outlives cutoffs.positions) :=
    fun symbol => Shadow.Book.ofSymbol_pruneBefore cutoffs.positions
  constructor
  case samples => exact fun symbol => Table.find?_filterLists _ _ _
  case pending => exact fun order => Table.find?_filter _ _ _
  case trades => exact trades_pruneFrom cutoffs governor
  case metrics =>
    intro track
    rw [← trades_pruneFrom, window_pruneFrom]
    exact (hfresh track).pruneBefore cutoffs.trades
  case positions => exact hpositions
  case opened =>
    intro symbol
    rw [hpositions, List.filter_filter]
    refine List.filter_congr fun position _ => ?_
    cases hopen : position.isOpen with
    | false => rfl
    | true => rw [Shadow.Book.outlives_of_isOpen hopen, Bool.and_self]
  case symbols => exact Shadow.Book.symbols_pruneBefore cutoffs.positions governor.shadow.book
  case pulls =>
    intro symbol
    refine (Registry.historyOf_prunePulls cutoffs.pulls governor.registry symbol).trans ?_
    exact List.filter_congr fun pull _ => Instant.not_decide_lt _ _
  case located =>
    exact fun decision => Registry.locate?_prunePulls hdistinct cutoffs.pulls decision
  case others =>
    dsimp only [withStores, pruneFrom, Drift.Monitor.pruneBefore]
    rw [Drift.Window.mk_capacity_pruneBefore, Drift.Window.mk_capacity_pruneBefore]
    rfl
  case removed =>
    simp only [pruneFrom, Costs.Desk.pruneFrom, Costs.size_keepPending, Drift.Monitor.pruneBefore,
      Drift.Window.count_pruneBefore, Shadow.Book.pruneBefore, Shadow.Book.not_outlives,
      Registry.prunePulls_eq]

end Governor

/-! ## Reachable governors -/

section

variable {settings : Settings} {entropy : Seeding} {notifier : Notifier} {clock : Instant}
  {start governor : Governor} {turns : List Turn}

/-- Wherever the cutoffs of a reachable governor can be represented, housekeeping is carried out.
It drops exactly what is older and counts it, and leaves nothing to a second pass. -/
theorem housekeeping_exact
    (hcreate : Governor.create settings entropy notifier clock = .ok start)
    (hhistory : History start turns governor)
    (hdistinct : governor.registry.DistinctDecisions) {now : Instant}
    (hcutoffs : ∀ retention ∈ settings.retentions,
      ∃ cutoff, retention >>= now.before = .ok cutoff) :
    ∃ next removals, governor.pruneExpired now = .ok (next, removals) ∧
      Governor.Pruned (settings.cutoffs now) governor next removals ∧
      next.pruneExpired now = .ok (next, .none) := by
  obtain rfl : governor.settings = settings :=
    hhistory.settings_eq.trans (Governor.create_eq_ok hcreate).1
  have hretention : Span.days governor.settings.costs.retentionDays =
      .ok governor.costs.history.retention :=
    hhistory.retention_eq ▸ (Governor.create_books hcreate).2
  let cutoffs := governor.settings.cutoffs now
  have hfirst := Governor.pruneExpired_eq hretention hcutoffs
  -- settings and the span of samples are the same for the second pass
  have hsecond : (governor.pruneFrom cutoffs).1.pruneExpired now =
      .ok ((governor.pruneFrom cutoffs).1.pruneFrom cutoffs) :=
    Governor.pruneExpired_eq (by exact hretention) hcutoffs
  rw [Governor.pruneFrom_pruneFrom] at hsecond
  have hfresh (track) : (governor.monitor.window track).Fresh :=
    hhistory.fresh_window (Governor.window_create hcreate track ▸ Drift.Window.fresh_empty _)
  exact ⟨_, _, hfirst, Governor.pruned_pruneFrom cutoffs hdistinct hfresh, hsecond⟩

end

/-- What lies a microsecond before its cutoff is dropped from every store, and what lies at its
cutoff is kept, as is an open position. -/
theorem housekeeping_exact_of_boundary_times :
    ∃ start turns governor next, Governor.create {} 0 .log ⟨0⟩ = .ok start ∧
      History start turns governor ∧ governor.registry.DistinctDecisions ∧
      governor.pruneExpired ⟨8640000000000⟩ =
        .ok (next, { costs := 2, drift := 2, shadow := 1, pulls := 1 }) ∧
      next.costs.history.all.length = 1 ∧ next.costs.pending.keys = ["edge"] ∧
      next.monitor.live.trades.length = 1 ∧ next.monitor.shadow.trades.length = 1 ∧
      (next.shadow.book.ofSymbol "BTC").map Shadow.Position.isOpen = [false, true] ∧
      (next.registry.historyOf "BTC").map Pull.decision = [.given "edge"] ∧
      next.pruneExpired ⟨8640000000000⟩ = .ok (next, .none) := by
  -- cutoffs of ninety-three, seventy and ten days, and of an hour before the hundredth day ends
  let submission (order : String) (submittedAt : Instant) : Command :=
    .submit ⟨some order, "BTC", .buy, .market, some 100.0, none, none, some submittedAt⟩
  let pull (decision : String) (time : Instant) : Command :=
    .logPull (.given ⟨1⟩) (.given decision) .empty ⟨0⟩ time
  let ticket : Shadow.Ticket := ⟨"BTC", .buy, 100.0, 1.0, 90.0, 110.0⟩
  let commands : List Command :=
    [.restoreArm (.create (.given ⟨1⟩) ⟨"BTC", "UP", .buy⟩ ⟨.given ⟨9⟩, .baseline⟩ ⟨0⟩),
      pull "old" ⟨863999999999⟩, pull "edge" ⟨864000000000⟩,
      submission "first" ⟨0⟩, .fill "first" 100.0 none (some ⟨8035199999999⟩),
      submission "second" ⟨0⟩, .fill "second" 100.0 none (some ⟨8035200000000⟩),
      submission "old" ⟨8636399999999⟩, submission "edge" ⟨8636400000000⟩,
      .setClock ⟨6047999999999⟩, .recordTradeResult .live 1.0,
      .registerShadow ticket, .priceTick "BTC" 111.0,
      .setClock ⟨6048000000000⟩, .recordTradeResult .live 1.0,
      .registerShadow ticket, .priceTick "BTC" 111.0, .registerShadow ticket]
  obtain ⟨start, turns, governor, hcreate, hhistory, -, hcheck⟩ :=
    Governor.exists_history_of_replays {} commands (fun _ governor =>
      decide governor.registry.DistinctDecisions &&
      match governor.pruneExpired ⟨8640000000000⟩ with
      | .error _ => false
      | .ok (next, removals) =>
        removals == { costs := 2, drift := 2, shadow := 1, pulls := 1 } &&
        next.costs.history.all.length == 1 && next.costs.pending.keys == ["edge"] &&
        next.monitor.live.trades.length == 1 && next.monitor.shadow.trades.length == 1 &&
        (next.shadow.book.ofSymbol "BTC").map Shadow.Position.isOpen == [false, true] &&
        (next.registry.historyOf "BTC").map Pull.decision == [.given "edge"])
      (by decide +kernel)
  rw [Bool.and_eq_true, decide_eq_true_eq] at hcheck
  obtain ⟨hdistinct, hcheck⟩ := hcheck
  have hbounded : ({} : Settings).Bounded :=
    ⟨by decide, by decide, by decide, by decide, by decide, by decide⟩
  obtain ⟨next, removals, hfirst, -, hsecond⟩ :=
    housekeeping_exact hcreate hhistory hdistinct fun retention hretention =>
      (({} : Settings).bounded_iff.mp hbounded).2 retention hretention ⟨8640000000000⟩ (by decide)
  simp only [hfirst, Bool.and_eq_true, beq_iff_eq] at hcheck
  obtain ⟨⟨⟨⟨⟨⟨rfl, hsamples⟩, hpending⟩, hlive⟩, hshadow⟩, hpositions⟩, hpulls⟩ := hcheck
  exact ⟨start, turns, governor, next, hcreate, hhistory, hdistinct, hfirst, hsamples, hpending,
    hlive, hshadow, hpositions, hpulls, hsecond⟩

end ExposureControl
