import ExposureControl.Proofs.DriftSignals
import ExposureControl.Proofs.ShadowRun
import ExposureControl.Proofs.WindowContents
import Mathlib.Data.List.TakeWhile

/-!
# Bookings

A booking is a finite result of one trade: a live one, an explicit shadow one, or that of a shadow
position that a price closed.  A booking takes two ways, to the total of its symbol and to the
drift window of its track.  Both ends are folds over the same list, that of the bookings of a
history, so none of them is lost or counted twice however the calls are mixed.
-/

namespace ExposureControl

/-- A finite result of a trade, with the symbol and the track that it counts for. -/
structure Booking where
  track : Drift.Track
  symbol : String
  trade : Drift.Trade

namespace Booking

/-- The booking of a result, if that is finite. -/
def of? (track : Drift.Track) (symbol : String) (now : Instant) (result : Float) :
    Option Booking :=
  (Binary64.finite? result).map fun result => ⟨track, symbol, now, result⟩

def ofCloses (symbol : String) (now : Instant) (closed : List Shadow.Position) : List Booking :=
  closed.filterMap fun position => position.profit.bind (of? .shadow symbol now)

/-- The results that count for a symbol on a track, in the order of the bookings. -/
def resultsOf (track : Drift.Track) (symbol : String) (bookings : List Booking) : List Float :=
  (bookings.filter fun booking => booking.track = track ∧ booking.symbol = symbol).map
    fun booking => booking.trade.result

/-- The trades of a track, of whatever symbol, in the order of the bookings. -/
def tradesOf (track : Drift.Track) (bookings : List Booking) : List Drift.Trade :=
  (bookings.filter fun booking => booking.track = track).map Booking.trade

variable {track : Drift.Track} {symbol : String}

@[simp]
theorem resultsOf_append (first second : List Booking) :
    resultsOf track symbol (first ++ second) =
      resultsOf track symbol first ++ resultsOf track symbol second := by
  simp [resultsOf]

@[simp]
theorem tradesOf_nil : tradesOf track [] = [] := rfl

@[simp]
theorem tradesOf_append (first second : List Booking) :
    tradesOf track (first ++ second) = tradesOf track first ++ tradesOf track second := by
  simp [tradesOf]

theorem of?_of_finite {result : Float} (hfinite : result.isFinite = true) (now : Instant) :
    of? track symbol now result = some ⟨track, symbol, now, result⟩ := by
  simp [of?, Binary64.finite?, hfinite]

theorem of?_of_not_finite {result : Float} (hfinite : result.isFinite = false) (now : Instant) :
    of? track symbol now result = none := by
  simp [of?, Binary64.finite?, hfinite]

end Booking

def Turn.bookings (turn : Turn) : List Booking :=
  match turn.command, turn.answer with
  | .reportLive symbol result, _ => (Booking.of? .live symbol turn.before.clock result).toList
  | .reportShadow symbol result, _ =>
    (Booking.of? .shadow symbol turn.before.clock result).toList
  | .priceTick symbol _, .ok (.positions closed) =>
    Booking.ofCloses symbol turn.before.clock closed
  | _, _ => []

/-- The bookings of a history, oldest first. -/
def bookingsOf : List Turn → List Booking
  | [] => []
  | turn :: past => bookingsOf past ++ turn.bookings

/-- Whether a command hands a result to the shadow engine or to the drift monitor alone, which no
operation of the governor does. -/
def Command.oneSided : Command → Bool
  | .bookLive .. | .recordTradeResult .. => true
  | _ => false

/-! ## Totals -/

namespace Shadow

def Totals.of (track : Drift.Track) (totals : Totals) : Float :=
  match track with
  | .live => totals.live
  | .shadow => totals.shadow

def Totals.credit (track : Drift.Track) (result : Float) (totals : Totals) : Totals :=
  match track with
  | .live => { totals with live := totals.live + result }
  | .shadow => { totals with shadow := totals.shadow + result }

theorem Totals.of_credit (credited track : Drift.Track) (result : Float) (totals : Totals) :
    (totals.credit credited result).of track =
      if credited = track then totals.of track + result else totals.of track := by
  cases credited <;> cases track <;> rfl

/-- The booking that a booked shadow fill hands on. -/
def BookedFill.booking (symbol : String) (now : Instant) (fill : BookedFill) : Booking :=
  ⟨.shadow, symbol, now, fill.result⟩

@[simp]
theorem BookedFill.result_booking (symbol : String) (now : Instant) (fill : BookedFill) :
    (fill.booking symbol now).trade.result = fill.result := rfl

namespace Engine

variable {settings : Settings.Shadow} {before middle after engine : Engine}
  {first second : List Booking}

/-- Whether an engine got from one state to another by adding bookings to its totals. -/
def Adds (before : Engine) (bookings : List Booking) (after : Engine) : Prop :=
  ∀ track symbol, (after.totalsOf symbol).of track =
    (Booking.resultsOf track symbol bookings).foldl (· + ·) ((before.totalsOf symbol).of track)

theorem Adds.append (hfirst : Adds before first middle) (hsecond : Adds middle second after) :
    Adds before (first ++ second) after := by
  intro track symbol
  rw [hsecond, hfirst, Booking.resultsOf_append, List.foldl_append]

theorem Adds.of_totals_eq (htotals : after.totals = before.totals) : Adds before [] after := by
  intro track symbol
  rw [totalsOf, htotals]
  rfl

theorem Adds.checkDivergence (hadds : Adds before first after) (settings : Settings.Shadow)
    (symbol : String) : Adds before first (after.checkDivergence settings symbol).1 := by
  have hsame : Adds after [] (after.checkDivergence settings symbol).1 := by
    apply Adds.of_totals_eq
    dsimp only [Engine.checkDivergence]
    split <;> rfl
  simpa using hadds.append hsame

theorem totalsOf_changeTotals (symbol : String) (change : Totals → Totals) (engine : Engine)
    (other : String) :
    (engine.changeTotals symbol change).totalsOf other =
      if other = symbol then change (engine.totalsOf symbol) else engine.totalsOf other := by
  rw [totalsOf, changeTotals, Table.find?_update]
  by_cases hother : other = symbol
  · rw [if_pos hother, if_pos hother, Option.getD_some, totalsOf]
  · rw [if_neg hother, if_neg hother, totalsOf]

theorem adds_credit (booking : Booking) (engine : Engine) :
    Adds engine [booking] (engine.changeTotals booking.symbol
      (Totals.credit booking.track booking.trade.result)) := by
  intro track symbol
  rw [totalsOf_changeTotals]
  by_cases hsymbol : symbol = booking.symbol
  · subst hsymbol
    rw [if_pos rfl, Totals.of_credit]
    by_cases htrack : booking.track = track
    · simp [Booking.resultsOf, htrack]
    · simp [Booking.resultsOf, htrack]
  · simp [Booking.resultsOf, hsymbol, Ne.symm hsymbol]

theorem adds_bookLive (settings : Settings.Shadow) (symbol : String) (result : Float)
    (now : Instant) (engine : Engine) :
    Adds engine (Booking.of? .live symbol now result).toList
      (engine.bookLive settings symbol result).1 := by
  unfold bookLive
  split
  · next hfinite =>
    rw [Booking.of?_of_finite hfinite]
    exact (adds_credit ⟨.live, symbol, now, result⟩ engine).checkDivergence settings symbol
  · next hfinite =>
    rw [Booking.of?_of_not_finite (by simpa using hfinite)]
    exact .of_totals_eq rfl

/-- A finite shadow result is added to the totals and handed on, as one booking. -/
theorem adds_bookShadow (settings : Settings.Shadow) (symbol : String) (result : Float)
    (now : Instant) (engine : Engine) :
    Adds engine (Booking.of? .shadow symbol now result).toList
        (engine.bookShadow settings symbol result).1 ∧
      (engine.bookShadow settings symbol result).2.map (BookedFill.booking symbol now) =
        Booking.of? .shadow symbol now result := by
  unfold bookShadow
  split
  · next hfinite =>
    rw [Booking.of?_of_finite hfinite]
    exact ⟨(adds_credit ⟨.shadow, symbol, now, result⟩ engine).checkDivergence settings symbol, rfl⟩
  · next hfinite =>
    rw [Booking.of?_of_not_finite (by simpa using hfinite)]
    exact ⟨.of_totals_eq rfl, rfl⟩

theorem adds_countClose (symbol : String) (engine : Engine) :
    Adds engine [] (engine.changeTotals symbol fun totals =>
      { totals with closedTrades := totals.closedTrades + 1 }) := by
  intro track other
  rw [totalsOf_changeTotals]
  split
  · next hother =>
    rw [hother]
    cases track <;> rfl
  · rfl

theorem adds_bookClose (settings : Settings.Shadow) (symbol : String) (result : Float)
    (now : Instant) (engine : Engine) :
    Adds engine (Booking.of? .shadow symbol now result).toList
        (engine.bookClose settings symbol result).1 ∧
      (engine.bookClose settings symbol result).2.map (BookedFill.booking symbol now) =
        Booking.of? .shadow symbol now result := by
  obtain ⟨hadds, hhanded⟩ := adds_bookShadow settings symbol result now
    (engine.changeTotals symbol fun totals =>
      { totals with closedTrades := totals.closedTrades + 1 })
  exact ⟨(adds_countClose symbol engine).append hadds, hhanded⟩

/-- Closes are booked one after the other, each once. -/
theorem adds_bookCloses (symbol : String) (now : Instant) {closed : List Position}
    (hclosed : ∀ position ∈ closed, position.profit.isSome = true) (engine : Engine) :
    Adds engine (Booking.ofCloses symbol now closed)
        (bookCloses settings symbol closed engine).1 ∧
      (bookCloses settings symbol closed engine).2.map (BookedFill.booking symbol now) =
        Booking.ofCloses symbol now closed := by
  induction closed generalizing engine with
  | nil => exact ⟨.of_totals_eq rfl, rfl⟩
  | cons position rest ih =>
    obtain ⟨hfirst, hrest⟩ := List.forall_mem_cons.mp hclosed
    obtain ⟨profit, hprofit⟩ := Option.isSome_iff_exists.mp hfirst
    obtain ⟨hadds, hhanded⟩ := adds_bookClose settings symbol profit now engine
    obtain ⟨haddsRest, hhandedRest⟩ := ih hrest (engine.bookClose settings symbol profit).1
    have hbookings : Booking.ofCloses symbol now (position :: rest) =
        (Booking.of? .shadow symbol now profit).toList ++ Booking.ofCloses symbol now rest := by
      rw [Booking.ofCloses, List.filterMap_cons, hprofit, Option.bind_some]
      cases Booking.of? .shadow symbol now profit <;> rfl
    rw [hbookings]
    dsimp only [bookCloses]
    rw [hprofit, Option.getD_some]
    refine ⟨hadds.append haddsRest, ?_⟩
    rw [List.map_append, hhandedRest, ← hhanded, Option.toList_map]

theorem isSome_profit_of_trigger {book next : Book} {symbol : String} {price : Float}
    {now : Instant} {closed : List Position}
    (htrigger : book.trigger symbol price now = .ok (next, closed)) :
    ∀ position ∈ closed, position.profit.isSome = true := by
  rw [(Book.of_trigger htrigger).2]
  intro position hposition
  obtain ⟨before, -, rfl⟩ := List.mem_map.mp hposition
  rfl

/-- A tick books what it closes, and hands on what it books. -/
theorem adds_priceTick {symbol : String} {price : Float} {now : Instant} {closed : List Position}
    {fills : List BookedFill}
    (htick : engine.priceTick settings symbol price now = .ok (after, closed, fills)) :
    Adds engine (Booking.ofCloses symbol now closed) after ∧
      fills.map (BookedFill.booking symbol now) = Booking.ofCloses symbol now closed := by
  unfold priceTick at htick
  split at htick
  · simp only [Fault.bind_eq_ok_iff, Fault.pure_eq_ok_iff, Prod.mk.injEq, Prod.exists] at htick
    obtain ⟨book, positions, htrigger, rfl, rfl, rfl⟩ := htick
    exact adds_bookCloses symbol now (isSome_profit_of_trigger htrigger) { engine with book }
  · simp only [Except.ok.injEq, Prod.mk.injEq] at htick
    obtain ⟨rfl, rfl, rfl⟩ := htick
    exact ⟨.of_totals_eq rfl, rfl⟩

theorem adds_restore (position : Position) (engine : Engine) :
    Adds engine [] (engine.restore position) := by
  have hbook : Adds engine [] { engine with book := (engine.book.restore position).1 } :=
    .of_totals_eq rfl
  dsimp only [restore]
  split
  · exact hbook
  · exact hbook.append (adds_countClose position.symbol _)

end Engine

end Shadow

/-! ## Windows -/

namespace Drift

def Monitor.window (track : Track) (monitor : Monitor) : Window :=
  match track with
  | .live => monitor.live
  | .shadow => monitor.shadow

/-- The trade that a signal brings to a track, if its result is finite. -/
def Signal.trade? (track : Track) : Signal → Option Trade
  | .trade now other result =>
    if other = track then (Binary64.finite? result).map fun result => ⟨now, result⟩ else none
  | _ => none

/-- Whether a signal takes trades out of the windows. -/
def Signal.clears : Signal → Bool
  | .reset | .prune _ => true
  | _ => false

variable {settings : Settings.Drift} {track : Track}

theorem Monitor.window_evaluate (track : Track) (monitor : Monitor) (gate : Gate) :
    (monitor.evaluate settings gate).1.window track = monitor.window track := by
  simp only [evaluate, escalate, recover]
  split
  · rfl
  · split
    · split
      · rfl
      · cases track <;> rfl
    · split
      · rfl
      · cases track <;> rfl

namespace Watch

/-- While the monitor is switched on, a signal that takes nothing out of a window pushes the trade
that it brings. -/
theorem window_receive (henabled : settings.enabled = true) (watch : Watch) {signal : Signal}
    (hkeeps : signal.clears = false) :
    (watch.receive settings signal).1.monitor.window track =
      (signal.trade? track).toList.foldl (fun window trade => window.push trade)
        (watch.monitor.window track) := by
  cases signal with
  | trade now other result =>
    simp only [receive, Monitor.record, henabled, Bool.true_and, Signal.trade?, Binary64.finite?]
    split
    · rw [Monitor.window_evaluate]
      cases other <;> cases track <;> rfl
    · split <;> rfl
  | notice | setKillSwitch | setMode => rfl
  | reset | prune => cases hkeeps

theorem window_run (henabled : settings.enabled = true) {signals : List Signal}
    (hkeeps : ∀ signal ∈ signals, signal.clears = false) (watch : Watch) :
    (watch.run settings signals).1.monitor.window track =
      (signals.filterMap (Signal.trade? track)).foldl (fun window trade => window.push trade)
        (watch.monitor.window track) := by
  induction signals generalizing watch with
  | nil => rfl
  | cons signal rest ih =>
    obtain ⟨hfirst, hrest⟩ := List.forall_mem_cons.mp hkeeps
    simp only [run, ih hrest, window_receive henabled watch hfirst, List.filterMap_cons]
    cases signal.trade? track <;> rfl

/-- Whatever a signal does to a window is a change of the window's own. -/
theorem exists_calls_receive (watch : Watch) (signal : Signal) :
    ∃ calls, (watch.receive settings signal).1.monitor.window track =
      (watch.monitor.window track).after calls := by
  cases signal with
  | trade now other result =>
    simp only [receive, Monitor.record]
    split
    · rw [Monitor.window_evaluate]
      by_cases hother : other = track
      · subst hother
        refine ⟨[.push ⟨now, result⟩], ?_⟩
        cases other <;> rfl
      · refine ⟨[], ?_⟩
        cases other <;> cases track <;> first | rfl | exact absurd rfl hother
    · exact ⟨[], rfl⟩
  | notice | setKillSwitch | setMode => exact ⟨[], rfl⟩
  | reset => exact ⟨[.clear], by cases track <;> rfl⟩
  | prune cutoff => exact ⟨[.prune cutoff], by cases track <;> rfl⟩

theorem exists_calls_run (signals : List Signal) (watch : Watch) :
    ∃ calls, (watch.run settings signals).1.monitor.window track =
      (watch.monitor.window track).after calls := by
  induction signals generalizing watch with
  | nil => exact ⟨[], rfl⟩
  | cons signal rest ih =>
    obtain ⟨first, hfirst⟩ := @exists_calls_receive settings track watch signal
    obtain ⟨later, hlater⟩ := ih (watch.receive settings signal).1
    exact ⟨first ++ later, by rw [Window.after_append, ← hfirst]; exact hlater⟩

theorem capacity_run (signals : List Signal) (watch : Watch) :
    ((watch.run settings signals).1.monitor.window track).capacity =
      (watch.monitor.window track).capacity := by
  obtain ⟨calls, hcalls⟩ := @exists_calls_run settings track signals watch
  rw [hcalls, Window.capacity_after]

/-- Whatever comes in, the summary of a window stays that of its trades. -/
theorem fresh_run (signals : List Signal) {watch : Watch}
    (hfresh : (watch.monitor.window track).Fresh) :
    ((watch.run settings signals).1.monitor.window track).Fresh := by
  obtain ⟨calls, hcalls⟩ := @exists_calls_run settings track signals watch
  rw [hcalls]
  exact hfresh.after calls

end Watch

end Drift

open Drift (Signal)

/-! ## The bookings of a step -/

namespace Booking

variable {track : Drift.Track} {symbol : String} {now : Instant}

theorem tradesOf_of? (booked track : Drift.Track) (symbol : String) (now : Instant)
    (result : Float) :
    tradesOf track (of? booked symbol now result).toList =
      ((Signal.trade now booked result).trade? track).toList := by
  cases hfinite : result.isFinite with
  | true =>
    rw [of?_of_finite hfinite]
    by_cases htrack : booked = track
    · simp [tradesOf, Signal.trade?, htrack, Binary64.finite?, hfinite]
    · simp [tradesOf, Signal.trade?, htrack]
  | false =>
    rw [of?_of_not_finite hfinite]
    simp [Signal.trade?, Binary64.finite?, hfinite]

theorem isFinite_of_mem_of? {booked : Drift.Track} {result : Float} {booking : Booking}
    (hbooking : booking ∈ of? booked symbol now result) :
    booking.trade.result.isFinite = true := by
  cases hfinite : result.isFinite with
  | true =>
    rw [of?_of_finite hfinite] at hbooking
    cases hbooking
    exact hfinite
  | false =>
    rw [of?_of_not_finite hfinite] at hbooking
    cases hbooking

theorem isFinite_of_mem_ofCloses {closed : List Shadow.Position} {booking : Booking}
    (hbooking : booking ∈ ofCloses symbol now closed) : booking.trade.result.isFinite = true := by
  obtain ⟨position, -, hbooked⟩ := List.mem_filterMap.mp hbooking
  obtain ⟨profit, -, hbooked⟩ := Option.bind_eq_some_iff.mp hbooked
  exact isFinite_of_mem_of? hbooked

end Booking

namespace Governor

variable {governor next : Governor} {command : Command} {answer : Except Refusal Reply}
  {track : Drift.Track}

theorem trades_of_notices (track : Drift.Track) (alerts : List Alert) :
    (alerts.map Signal.notice).filterMap (Signal.trade? track) = [] := by
  rw [List.filterMap_map]
  exact List.filterMap_eq_nil_iff.mpr fun _ _ => rfl

/-- The fills that a call of the shadow engine hands on bring their bookings. -/
theorem trades_of_fills {fills : List Shadow.BookedFill} {bookings : List Booking}
    {symbol : String} {now : Instant}
    (hhanded : fills.map (Shadow.BookedFill.booking symbol now) = bookings)
    (hfinite : ∀ booking ∈ bookings, booking.trade.result.isFinite = true) :
    (fills.flatMap (fillSignals now)).filterMap (Signal.trade? track) =
      Booking.tradesOf track bookings := by
  induction fills generalizing bookings with
  | nil =>
    subst hhanded
    rfl
  | cons fill rest ih =>
    subst hhanded
    obtain ⟨hfirst, hrest⟩ := List.forall_mem_cons.mp hfinite
    have hbooking := Booking.tradesOf_of? .shadow track symbol now fill.result
    rw [Booking.of?_of_finite (by rwa [Shadow.BookedFill.result_booking] at hfirst)] at hbooking
    have hsignals : (fillSignals now fill).filterMap (Signal.trade? track) =
        ((Signal.trade now .shadow fill.result).trade? track).toList := by
      rw [fillSignals, List.filterMap_append, trades_of_notices]
      cases hbrought : (Signal.trade now .shadow fill.result).trade? track <;> simp [hbrought]
    rw [List.flatMap_cons, List.filterMap_append, ih rfl hrest, hsignals, ← hbooking,
      ← Booking.tradesOf_append]
    rfl

theorem trades_of_step (hsided : command.oneSided = false)
    (hstep : governor.step command = .ok (next, answer)) (track : Drift.Track) :
    (governor.signals command).filterMap (Signal.trade? track) =
      Booking.tradesOf track (Turn.bookings ⟨governor, command, answer, next⟩) := by
  cases command with
  | reportLive symbol result =>
    have hbooking := Booking.tradesOf_of? .live track symbol governor.clock result
    simp only [Turn.bookings, hbooking, signals, List.filterMap_append, trades_of_notices,
      List.nil_append]
    cases hbrought : (Signal.trade governor.clock .live result).trade? track <;> simp [hbrought]
  | reportShadow symbol result =>
    obtain ⟨-, hhanded⟩ :=
      Shadow.Engine.adds_bookShadow governor.settings.shadow symbol result governor.clock
        governor.shadow
    refine trades_of_fills (Option.toList_map.symm.trans (congrArg Option.toList hhanded)) ?_
    exact fun booking hbooking => Booking.isFinite_of_mem_of? (Option.mem_toList.mp hbooking)
  | priceTick symbol price =>
    simp only [step, answering, Governor.priceTick, Fault.bind_eq_ok_iff, Fault.pure_eq_ok_iff,
      Except.ok.injEq, Prod.mk.injEq, Prod.exists] at hstep
    obtain ⟨_, _, ⟨shadow, closed, fills, htick, rfl, rfl⟩, rfl, rfl⟩ := hstep
    obtain ⟨-, hhanded⟩ := Shadow.Engine.adds_priceTick htick
    simp only [signals, htick]
    exact trades_of_fills hhanded fun _ => Booking.isFinite_of_mem_ofCloses
  | pruneExpired now =>
    rw [signals, List.filterMap_map]
    exact List.filterMap_eq_nil_iff.mpr fun _ _ => rfl
  | bookLive | recordTradeResult => cases hsided
  | _ =>
    simp only [signals, Turn.bookings, List.filterMap_nil, List.filterMap_cons, Signal.trade?,
      Booking.tradesOf_nil]

theorem clears_eq_false_of_step {signal : Signal} (hreset : command ≠ .resetMonitor)
    (hprune : ∀ now, command ≠ .pruneExpired now) (hsignal : signal ∈ governor.signals command) :
    signal.clears = false := by
  have hnotice : ∀ {alerts : List Alert}, signal ∈ alerts.map .notice → signal.clears = false := by
    intro alerts hmem
    obtain ⟨alert, -, rfl⟩ := List.mem_map.mp hmem
    rfl
  have hfills : ∀ {fills : List Shadow.BookedFill},
      signal ∈ fills.flatMap (fillSignals governor.clock) → signal.clears = false := by
    intro fills hmem
    obtain ⟨fill, -, hmem⟩ := List.mem_flatMap.mp hmem
    obtain hraised | htrade := List.mem_append.mp hmem
    · exact hnotice hraised
    · obtain rfl := List.mem_singleton.mp htrade
      rfl
  cases command with
  | bookLive => exact hnotice hsignal
  | reportLive =>
    obtain hraised | htrade := List.mem_append.mp hsignal
    · exact hnotice hraised
    · obtain rfl := List.mem_singleton.mp htrade
      rfl
  | reportShadow => exact hfills hsignal
  | priceTick =>
    dsimp only [signals] at hsignal
    split at hsignal
    · exact hfills hsignal
    · cases hsignal
  | recordTradeResult | setKillSwitch | setMode =>
    obtain rfl := List.mem_singleton.mp hsignal
    rfl
  | resetMonitor => exact absurd rfl hreset
  | pruneExpired now => exact absurd rfl (hprune now)
  | _ => cases hsignal

/-- While the monitor is switched on, a step that takes nothing out of the windows pushes the
bookings of its turn there. -/
theorem window_of_step (henabled : governor.settings.drift.enabled = true)
    (hsided : command.oneSided = false) (hreset : command ≠ .resetMonitor)
    (hprune : ∀ now, command ≠ .pruneExpired now)
    (hstep : governor.step command = .ok (next, answer)) (track : Drift.Track) :
    next.monitor.window track =
      (Booking.tradesOf track (Turn.bookings ⟨governor, command, answer, next⟩)).foldl
        (fun window trade => window.push trade) (governor.monitor.window track) := by
  have hkeeps : ∀ signal ∈ governor.signals command, signal.clears = false :=
    fun _ => clears_eq_false_of_step hreset hprune
  change next.watch.monitor.window track = _
  rw [watch_of_step hstep, Drift.Watch.window_run henabled hkeeps, trades_of_step hsided hstep]
  rfl

theorem adds_of_step (hsided : command.oneSided = false)
    (hstep : governor.step command = .ok (next, answer)) :
    Shadow.Engine.Adds governor.shadow (Turn.bookings ⟨governor, command, answer, next⟩)
      next.shadow := by
  have hcall := shadow_of_step hstep
  cases command with
  | reportLive symbol result =>
    simp only [step, answering, Except.ok.injEq, Prod.mk.injEq] at hstep
    rw [← hstep.1]
    exact Shadow.Engine.adds_bookLive _ symbol result governor.clock governor.shadow
  | reportShadow symbol result =>
    simp only [step, answering, Except.ok.injEq, Prod.mk.injEq] at hstep
    rw [← hstep.1, reportShadow, shadow_forwardFills]
    exact (Shadow.Engine.adds_bookShadow _ symbol result governor.clock governor.shadow).1
  | priceTick symbol price =>
    simp only [step, answering, Governor.priceTick, Fault.bind_eq_ok_iff, Fault.pure_eq_ok_iff,
      Except.ok.injEq, Prod.mk.injEq, Prod.exists] at hstep
    obtain ⟨_, _, ⟨shadow, closed, fills, htick, rfl, rfl⟩, rfl, rfl⟩ := hstep
    rw [shadow_forwardFills]
    exact (Shadow.Engine.adds_priceTick htick).1
  | registerShadow ticket =>
    simp only [step, answering, Except.ok.injEq, Prod.mk.injEq] at hstep
    rw [← hstep.1]
    refine .of_totals_eq ?_
    dsimp only [registerShadow, Shadow.Engine.register]
    split <;> rfl
  | restorePosition position =>
    simp only [step, answering, Except.ok.injEq, Prod.mk.injEq] at hstep
    rw [← hstep.1]
    exact Shadow.Engine.adds_restore position governor.shadow
  | pruneExpired now =>
    obtain ⟨given, hperform⟩ := hcall
    simp only [Shadow.Engine.perform, Shadow.Engine.pruneExpired, Fault.bind_eq_ok_iff,
      Fault.pure_eq_ok_iff, Prod.mk.injEq, Prod.exists] at hperform
    obtain ⟨pruned, _, ⟨_, -, _, -, hpruned, -⟩, hnext, -⟩ := hperform
    refine .of_totals_eq ?_
    rw [← hnext, ← hpruned]
  | bookLive | recordTradeResult => cases hsided
  | _ =>
    dsimp only [Command.shadowCall?] at hcall
    rw [hcall]
    exact .of_totals_eq rfl

end Governor

theorem Governor.window_create {settings : Settings} {entropy : Seeding} {notifier : Notifier}
    {clock : Instant} {start : Governor}
    (hcreate : Governor.create settings entropy notifier clock = .ok start) (track : Drift.Track) :
    start.monitor.window track = .empty settings.drift.windowTrades := by
  simp only [Governor.create, Drift.Monitor.create, Drift.Window.create, Fault.bind_eq_ok_iff,
    Fault.pure_eq_ok_iff] at hcreate
  obtain ⟨_, -, _, ⟨window, hwindow, rfl⟩, rfl⟩ := hcreate
  split at hwindow
  · cases hwindow
    cases track <;> rfl
  · cases hwindow

/-! ## The bookings of a history -/

/-- The turns of a history since the drift monitor was last reset, newest first. -/
def sinceReset (turns : List Turn) : List Turn :=
  turns.takeWhile fun turn =>
    match turn.command with
    | .resetMonitor => false
    | _ => true

/-- What the bookings of a history come to: every total is the sum of its results in order, from
zero, and every window holds the latest trades of its track since the last reset, unless
housekeeping took some out in the meantime. -/
structure BooksBalance (settings : Settings.Drift) (turns : List Turn) (governor : Governor) :
    Prop where
  live : ∀ symbol, (governor.shadow.totalsOf symbol).live =
    (Booking.resultsOf .live symbol (bookingsOf turns)).foldl (· + ·) 0.0
  shadow : ∀ symbol, (governor.shadow.totalsOf symbol).shadow =
    (Booking.resultsOf .shadow symbol (bookingsOf turns)).foldl (· + ·) 0.0
  windows : settings.enabled = true →
    (∀ turn ∈ sinceReset turns, ∀ now, turn.command ≠ .pruneExpired now) →
    ∀ track, (governor.monitor.window track).trades =
      Drift.Window.lastOf (max settings.windowTrades 1)
        (Booking.tradesOf track (bookingsOf (sinceReset turns)))

namespace History

variable {start governor : Governor} {turns : List Turn}

/-- The totals have added up the bookings of the history. -/
theorem adds (hhistory : History start turns governor)
    (hsided : ∀ turn ∈ turns, turn.command.oneSided = false) :
    Shadow.Engine.Adds start.shadow (bookingsOf turns) governor.shadow := by
  induction hhistory with
  | start => exact .of_totals_eq rfl
  | turn past step ih =>
    obtain ⟨hturn, hpast⟩ := List.forall_mem_cons.mp hsided
    exact (ih hpast).append (Governor.adds_of_step hturn step)

theorem capacity_window (hhistory : History start turns governor) (track : Drift.Track) :
    (governor.monitor.window track).capacity = (start.monitor.window track).capacity := by
  have hwatch : (start.watch.run start.settings.drift (signalsOf turns)).1 = governor.watch :=
    congrArg Prod.fst hhistory.run_watch
  change (governor.watch.monitor.window track).capacity = _
  rw [← hwatch, Drift.Watch.capacity_run]
  rfl

theorem fresh_window (hhistory : History start turns governor) {track : Drift.Track}
    (hfresh : (start.monitor.window track).Fresh) : (governor.monitor.window track).Fresh := by
  have hwatch : (start.watch.run start.settings.drift (signalsOf turns)).1 = governor.watch :=
    congrArg Prod.fst hhistory.run_watch
  change (governor.watch.monitor.window track).Fresh
  rw [← hwatch]
  exact Drift.Watch.fresh_run _ hfresh

/-- As long as nothing is taken out of the windows, the bookings of the history are pushed there. -/
theorem window_eq (hhistory : History start turns governor)
    (henabled : start.settings.drift.enabled = true)
    (hsided : ∀ turn ∈ turns, turn.command.oneSided = false)
    (hkept : ∀ turn ∈ turns, turn.command ≠ .resetMonitor ∧
      ∀ now, turn.command ≠ .pruneExpired now) (track : Drift.Track) :
    governor.monitor.window track =
      (Booking.tradesOf track (bookingsOf turns)).foldl (fun window trade => window.push trade)
        (start.monitor.window track) := by
  induction hhistory with
  | start => rfl
  | @turn turns before next command answer past step ih =>
    obtain ⟨hturn, hpast⟩ := List.forall_mem_cons.mp hsided
    obtain ⟨hcommand, hearlier⟩ := List.forall_mem_cons.mp hkept
    have hstep := Governor.window_of_step (past.settings_eq ▸ henabled) hturn hcommand.1 hcommand.2
      step track
    rw [hstep, ih hpast hearlier, bookingsOf, Booking.tradesOf_append, List.foldl_append]

/-- The windows were empty when the turns since the last reset began. -/
theorem exists_start_of_sinceReset (hhistory : History start turns governor)
    (hempty : ∀ track, (start.monitor.window track).trades = []) :
    ∃ middle past, History start past middle ∧ History middle (sinceReset turns) governor ∧
      ∀ track, (middle.monitor.window track).trades = [] := by
  induction hhistory with
  | start => exact ⟨start, [], .start, .start, hempty⟩
  | @turn turns before next command answer earlier step ih =>
    obtain ⟨middle, past, hpast, hlater, hmiddle⟩ := ih
    cases command with
    | resetMonitor =>
      refine ⟨next, _, earlier.turn step, .start, fun track => ?_⟩
      simp only [Governor.step, Governor.answering, Except.ok.injEq, Prod.mk.injEq] at step
      rw [← step.1]
      cases track <;> rfl
    | _ => exact ⟨middle, past, hpast, hlater.turn step, hmiddle⟩

theorem ne_resetMonitor_of_mem_sinceReset {turn : Turn} (hturn : turn ∈ sinceReset turns) :
    turn.command ≠ .resetMonitor := by
  intro hreset
  have hkept := List.mem_takeWhile_imp hturn
  rw [hreset] at hkept
  cases hkept

end History

/-- Along every history of the governor's own operations the books balance: the bookings of the
history, each taken once and in order, make up every symbol's totals and both windows. -/
theorem books_balance {settings : Settings} {entropy : Seeding} {notifier : Notifier}
    {clock : Instant} {start governor : Governor} {turns : List Turn}
    (hcreate : Governor.create settings entropy notifier clock = .ok start)
    (hhistory : History start turns governor)
    (hsided : ∀ turn ∈ turns, turn.command.oneSided = false) :
    BooksBalance settings.drift turns governor := by
  obtain ⟨hsettings, hshadow, hwindow⟩ : start.settings = settings ∧ start.shadow = .empty ∧
      ∀ track, start.monitor.window track = .empty settings.drift.windowTrades := by
    simp only [Governor.create, Drift.Monitor.create, Drift.Window.create, Fault.bind_eq_ok_iff,
      Fault.pure_eq_ok_iff] at hcreate
    obtain ⟨_, -, _, ⟨window, hwindow, rfl⟩, rfl⟩ := hcreate
    split at hwindow
    · cases hwindow
      exact ⟨rfl, rfl, fun track => by cases track <;> rfl⟩
    · cases hwindow
  have hadds := hhistory.adds hsided
  rw [hshadow] at hadds
  refine ⟨hadds .live, hadds .shadow, fun henabled hprune track => ?_⟩
  obtain ⟨middle, past, hpast, hlater, hempty⟩ :=
    hhistory.exists_start_of_sinceReset fun track => by rw [hwindow]; rfl
  have hsubset : ∀ turn ∈ sinceReset turns, turn ∈ turns :=
    fun turn hturn => (List.takeWhile_subset _) hturn
  have hfilled := hlater.window_eq (by rwa [hpast.settings_eq, hsettings])
    (fun turn hturn => hsided turn (hsubset turn hturn))
    (fun turn hturn => ⟨History.ne_resetMonitor_of_mem_sinceReset hturn, hprune turn hturn⟩) track
  have hcapacity := hpast.capacity_window track
  rw [hwindow] at hcapacity
  rw [hfilled, Drift.Window.trades_foldl_push _ (by rw [hempty]; exact Nat.zero_le _), hempty,
    hcapacity]
  rfl

/-- One price closes two shadow positions beside live results and explicit shadow ones, one of which
is undefined: four bookings, and after a reset three more for windows of two trades. -/
theorem books_balance_after_reset :
    ∃ start turns governor,
      Governor.create { drift := { windowTrades := 2 } } 0 .log ⟨0⟩ = .ok start ∧
      History start turns governor ∧ (∀ turn ∈ turns, turn.command.oneSided = false) ∧
      (bookingsOf turns).map (fun booking => (booking.track, booking.symbol)) =
        [(.live, "BTC"), (.shadow, "BTC"), (.shadow, "BTC"), (.shadow, "ETH"),
          (.live, "BTC"), (.live, "ETH"), (.live, "BTC")] ∧
      (bookingsOf (sinceReset turns)).length = 3 ∧ governor.monitor.live.trades.length = 2 ∧
      governor.monitor.shadow.trades.length = 0 ∧
      BooksBalance { windowTrades := 2 } turns governor := by
  let ticket : Shadow.Ticket := ⟨"BTC", .buy, 100.0, 1.0, 90.0, 110.0⟩
  let commands : List Command :=
    [.reportLive "BTC" 1.5, .registerShadow ticket, .registerShadow ticket, .priceTick "BTC" 111.0,
      .reportShadow "ETH" 0.5, .reportLive "BTC" (0.0 / 0.0), .resetMonitor,
      .reportLive "BTC" 0.1, .reportLive "ETH" 0.2, .reportLive "BTC" 0.3]
  obtain ⟨start, turns, governor, hcreate, hhistory, -, hcheck⟩ :=
    Governor.exists_history_of_replays { drift := { windowTrades := 2 } } commands
      (fun turns governor =>
        turns.all (fun turn => turn.command.oneSided == false) &&
        (bookingsOf turns).map (fun booking => (booking.track, booking.symbol)) ==
          [(.live, "BTC"), (.shadow, "BTC"), (.shadow, "BTC"), (.shadow, "ETH"),
            (.live, "BTC"), (.live, "ETH"), (.live, "BTC")] &&
        (bookingsOf (sinceReset turns)).length == 3 && governor.monitor.live.trades.length == 2 &&
        governor.monitor.shadow.trades.length == 0) (by decide +kernel)
  simp only [Bool.and_eq_true, List.all_eq_true, beq_iff_eq] at hcheck
  obtain ⟨⟨⟨⟨hsided, hbookings⟩, hsince⟩, hlive⟩, hshadow⟩ := hcheck
  exact ⟨start, turns, governor, hcreate, hhistory, hsided, hbookings, hsince, hlive, hshadow,
    books_balance hcreate hhistory hsided⟩

end ExposureControl
