import ExposureControl.Proofs.Course
import ExposureControl.Proofs.ShadowBook
import ExposureControl.Proofs.Soundness
import ExposureControl.Proofs.Trace

/-!
# Runs of the shadow engine

The shadow engine answers calls by itself, each at a time of its caller's choice.  A call takes
the positions of every symbol by themselves: what it makes of them depends on nothing else that
the book holds, apart from how many positions were opened so far.
-/

namespace ExposureControl

namespace Shadow

/-- A call that may change the engine, with the time at which it is made where it matters. -/
inductive Call
  | register (ticket : Ticket) (now : Instant)
  | tick (symbol : String) (price : Float) (now : Instant)
  /-- Put a position on record as it is given. -/
  | restore (position : Position)
  /-- Book the result of a live trade. -/
  | bookLive (symbol : String) (result : Float)
  /-- Book the result of a shadow trade that is no close. -/
  | bookShadow (symbol : String) (result : Float)
  | prune (now : Instant)

/-- What a call gives back, and the fills and alerts that it hands on. -/
inductive Answer
  | opened (position : Option Position)
  | closed (positions : List Position) (fills : List BookedFill)
  | restored
  | bookedLive (alert : Option Alert)
  | bookedShadow (fill : Option BookedFill)
  | pruned (count : Nat)

/-- One call of the engine with its answer. -/
abbrev Event := ExposureControl.Event Engine Call Answer

/-- Answer a call. -/
def Engine.perform (settings : Settings.Shadow) (engine : Engine) :
    Call → Except Fault (Engine × Answer)
  | .register ticket now =>
    let (engine, position) := engine.register settings ticket now
    .ok (engine, .opened position)
  | .tick symbol price now => do
    let (engine, positions, fills) ← engine.priceTick settings symbol price now
    return (engine, .closed positions fills)
  | .restore position => .ok (engine.restore position, .restored)
  | .bookLive symbol result =>
    let (engine, alert) := engine.bookLive settings symbol result
    .ok (engine, .bookedLive alert)
  | .bookShadow symbol result =>
    let (engine, fill) := engine.bookShadow settings symbol result
    .ok (engine, .bookedShadow fill)
  | .prune now => do
    let (engine, count) ← engine.pruneExpired settings now
    return (engine, .pruned count)

def cutoff (settings : Settings.Shadow) (now : Instant) : Except Fault Instant := do
  now.before (← Span.days settings.closedRetentionDays)

/-- How an engine answers a call that it can answer, and what it becomes. -/
inductive Engine.Performed (settings : Settings.Shadow) (engine : Engine) :
    Call → Engine → Answer → Prop
  | register (ticket : Ticket) (now : Instant) :
      Performed settings engine (.register ticket now) (engine.register settings ticket now).1
        (.opened (engine.register settings ticket now).2)
  | tick {symbol : String} {price : Float} {now : Instant} {next : Engine}
      {positions : List Position} {fills : List BookedFill}
      (htick : engine.priceTick settings symbol price now = .ok (next, positions, fills)) :
      Performed settings engine (.tick symbol price now) next (.closed positions fills)
  | restore (position : Position) :
      Performed settings engine (.restore position) (engine.restore position) .restored
  | bookLive (symbol : String) (result : Float) :
      Performed settings engine (.bookLive symbol result)
        (engine.bookLive settings symbol result).1
        (.bookedLive (engine.bookLive settings symbol result).2)
  | bookShadow (symbol : String) (result : Float) :
      Performed settings engine (.bookShadow symbol result)
        (engine.bookShadow settings symbol result).1
        (.bookedShadow (engine.bookShadow settings symbol result).2)
  | prune {now time : Instant} (hcutoff : cutoff settings now = .ok time) :
      Performed settings engine (.prune now)
        { engine with book := (engine.book.pruneBefore time).1 }
        (.pruned (engine.book.pruneBefore time).2)

theorem Engine.performed_iff {settings : Settings.Shadow} {engine next : Engine} {call : Call}
    {answer : Answer} :
    engine.perform settings call = .ok (next, answer) ↔
      engine.Performed settings call next answer := by
  constructor
  · intro hperform
    cases call with
    | register | restore | bookLive | bookShadow =>
      cases hperform
      constructor
    | tick symbol price now =>
      simp only [perform, Fault.bind_eq_ok_iff, Fault.pure_eq_ok_iff, Prod.mk.injEq,
        Prod.exists] at hperform
      obtain ⟨_, closed, fills, htick, rfl, rfl⟩ := hperform
      exact .tick htick
    | prune now =>
      simp only [perform, pruneExpired, Fault.bind_eq_ok_iff, Fault.pure_eq_ok_iff,
        Prod.mk.injEq, Prod.exists] at hperform
      obtain ⟨_, _, ⟨span, hspan, time, htime, rfl, rfl⟩, rfl, rfl⟩ := hperform
      exact .prune (Fault.bind_eq_ok_iff.mpr ⟨span, hspan, htime⟩)
  · intro hperformed
    cases hperformed with
    | register | restore | bookLive | bookShadow => rfl
    | tick htick => exact Fault.bind_eq_ok_iff.mpr ⟨_, htick, rfl⟩
    | prune hcutoff =>
      obtain ⟨span, hspan, htime⟩ := Fault.bind_eq_ok_iff.mp hcutoff
      exact Fault.bind_eq_ok_iff.mpr ⟨_, Fault.bind_eq_ok_iff.mpr ⟨span, hspan,
        Fault.bind_eq_ok_iff.mpr ⟨_, htime, rfl⟩⟩, rfl⟩

/-! ## The positions of a symbol -/

namespace Call

variable (settings : Settings.Shadow)

/-- What a call makes of the positions of a symbol, where `drawn` positions were opened so far. -/
def revise (drawn : Nat) (symbol : String) (positions : List Position) : Call → List Position
  | .register ticket now =>
    if settings.enabled && Engine.acceptable ticket && ticket.symbol = symbol then
      positions ++ [.create (.drawn .positions (drawn + 1)) ticket now]
    else positions
  | .tick ticked price now =>
    if settings.enabled && price.isFinite && ticked = symbol then
      positions.map (Book.settle price now)
    else positions
  | .restore position =>
    if position.symbol = symbol then (Book.extract position.id positions).2 ++ [position]
    else positions
  | .prune now =>
    match cutoff settings now with
    | .ok cutoff => positions.filter (Book.outlives cutoff)
    | .error _ => positions
  | .bookLive .. | .bookShadow .. => positions

/-- How many identifiers are drawn with a call. -/
def draws : Call → Nat
  | .register ticket _ => if settings.enabled && Engine.acceptable ticket then 1 else 0
  | _ => 0

/-- Where a position of a symbol after a call comes from. -/
inductive Yields (drawn : Nat) (symbol : String) (positions : List Position) :
    Call → Position → Prop
  | kept {call : Call} {position : Position} (hposition : position ∈ positions) :
      Yields drawn symbol positions call position
  | settled {ticked : String} {price : Float} {now : Instant} {position : Position}
      (hposition : position ∈ positions) :
      Yields drawn symbol positions (.tick ticked price now) (Book.settle price now position)
  | opened {ticket : Ticket} {now : Instant}
      (haccepted : (settings.enabled && Engine.acceptable ticket) = true)
      (hsymbol : ticket.symbol = symbol) :
      Yields drawn symbol positions (.register ticket now)
        (.create (.drawn .positions (drawn + 1)) ticket now)
  | restored {position : Position} (hsymbol : position.symbol = symbol) :
      Yields drawn symbol positions (.restore position) position

variable {settings} {drawn : Nat} {symbol : String} {positions : List Position} {call : Call}

/-- A call yields every position that it leaves. -/
theorem yields_of_mem_revise {position : Position}
    (hposition : position ∈ call.revise settings drawn symbol positions) :
    call.Yields settings drawn symbol positions position := by
  cases call with
  | register ticket now =>
    dsimp only [revise] at hposition
    split at hposition
    · next hopened =>
      rw [Bool.and_eq_true, decide_eq_true_eq] at hopened
      cases List.mem_append.mp hposition with
      | inl hbefore => exact .kept hbefore
      | inr hnew => exact List.mem_singleton.mp hnew ▸ .opened hopened.1 hopened.2
    · exact .kept hposition
  | tick ticked price now =>
    dsimp only [revise] at hposition
    split at hposition
    · obtain ⟨before, hbefore, rfl⟩ := List.mem_map.mp hposition
      exact .settled hbefore
    · exact .kept hposition
  | restore given =>
    dsimp only [revise] at hposition
    split at hposition
    · next hsymbol =>
      cases List.mem_append.mp hposition with
      | inl hbefore => exact .kept (Book.mem_of_mem_extract hbefore)
      | inr hnew =>
        cases List.mem_singleton.mp hnew
        exact .restored hsymbol
    · exact .kept hposition
  | prune now =>
    dsimp only [revise] at hposition
    split at hposition
    · exact .kept (List.mem_filter.mp hposition).1
    · exact .kept hposition
  | bookLive _ _ | bookShadow _ _ => exact .kept hposition

end Call

namespace Engine

variable {settings : Settings.Shadow} {engine next : Engine} {call : Call} {answer : Answer}
  {symbol : String} {price : Float} {now : Instant}

@[simp]
theorem positionsDrawn_checkDivergence :
    (engine.checkDivergence settings symbol).1.positionsDrawn = engine.positionsDrawn := by
  dsimp only [checkDivergence]
  split <;> rfl

@[simp]
theorem positionsDrawn_bookLive {result : Float} :
    (engine.bookLive settings symbol result).1.positionsDrawn = engine.positionsDrawn := by
  unfold bookLive
  split
  · exact positionsDrawn_checkDivergence
  · rfl

@[simp]
theorem positionsDrawn_bookShadow {result : Float} :
    (engine.bookShadow settings symbol result).1.positionsDrawn = engine.positionsDrawn := by
  unfold bookShadow
  split
  · exact positionsDrawn_checkDivergence
  · rfl

theorem positionsDrawn_bookCloses (positions : List Position) (engine : Engine) :
    (bookCloses settings symbol positions engine).1.positionsDrawn = engine.positionsDrawn := by
  induction positions generalizing engine with
  | nil => rfl
  | cons position rest ih =>
    dsimp only [bookCloses]
    rw [ih]
    exact positionsDrawn_bookShadow

theorem restore_eq (position : Position) (engine : Engine) :
    (engine.restore position).book = (engine.book.restore position).1 ∧
      (engine.restore position).positionsDrawn = engine.positionsDrawn := by
  dsimp only [restore]
  split <;> exact ⟨rfl, rfl⟩

/-- A price that is acted on settles the symbol's positions and answers with those it closes; any
other price does nothing. -/
theorem of_priceTick {closed : List Position} {fills : List BookedFill}
    (htick : engine.priceTick settings symbol price now = .ok (next, closed, fills)) :
    next.positionsDrawn = engine.positionsDrawn ∧
      if settings.enabled && price.isFinite then
        engine.book.trigger symbol price now = .ok (next.book, closed)
      else next.book = engine.book ∧ closed = [] := by
  unfold priceTick at htick
  split at htick
  · next hacted =>
    simp only [Fault.bind_eq_ok_iff, Fault.pure_eq_ok_iff, Prod.mk.injEq, Prod.exists] at htick
    obtain ⟨book, positions, htrigger, rfl, rfl, -⟩ := htick
    rw [positionsDrawn_bookCloses, book_bookCloses, if_pos hacted]
    exact ⟨rfl, htrigger⟩
  · next hacted =>
    simp only [Except.ok.injEq, Prod.mk.injEq] at htick
    rw [← htick.1, ← htick.2.1, if_neg hacted]
    exact ⟨rfl, rfl, rfl⟩

/-- A call revises the positions of every symbol. -/
theorem ofSymbol_perform (hperform : engine.perform settings call = .ok (next, answer)) :
    next.book.ofSymbol symbol =
      call.revise settings engine.positionsDrawn symbol (engine.book.ofSymbol symbol) := by
  cases performed_iff.mp hperform with
  | register ticket now =>
    rw [register, Call.revise]
    by_cases hopened : (settings.enabled && acceptable ticket) = true
    · rw [if_pos hopened, hopened, Bool.true_and, Book.ofSymbol_insert]
      exact ite_congr (propext decide_eq_true_iff.symm) (fun _ => rfl) fun _ => rfl
    · rw [if_neg hopened, Bool.eq_false_iff.mpr hopened, Bool.false_and,
        if_neg Bool.false_ne_true]
  | @tick ticked price now _ closed fills htick =>
    obtain ⟨-, hbook⟩ := of_priceTick htick
    rw [Call.revise]
    by_cases hacted : (settings.enabled && price.isFinite) = true
    · rw [if_pos hacted] at hbook
      rw [(Book.of_trigger hbook).1 symbol, hacted, Bool.true_and]
      exact ite_congr (propext decide_eq_true_iff.symm) (fun _ => rfl) fun _ => rfl
    · rw [if_neg hacted] at hbook
      rw [hbook.1, Bool.eq_false_iff.mpr hacted, Bool.false_and, if_neg Bool.false_ne_true]
  | restore position => rw [(restore_eq position engine).1, Book.ofSymbol_restore, Call.revise]
  | bookLive booked result => rw [book_bookLive, Call.revise]
  | bookShadow booked result => rw [book_bookShadow, Call.revise]
  | @prune now time hcutoff =>
    rw [Call.revise, hcutoff]
    exact Book.ofSymbol_pruneBefore time

theorem positionsDrawn_perform (hperform : engine.perform settings call = .ok (next, answer)) :
    next.positionsDrawn = engine.positionsDrawn + call.draws settings := by
  cases performed_iff.mp hperform with
  | register ticket now =>
    rw [register, Call.draws]
    split <;> rfl
  | tick htick => exact (of_priceTick htick).1
  | restore position => exact (restore_eq position engine).2
  | bookLive => exact positionsDrawn_bookLive
  | bookShadow => exact positionsDrawn_bookShadow
  | prune => rfl

/-- A price that is acted on answers with the symbol's positions that it closes. -/
theorem answer_tick
    (hperform : engine.perform settings (.tick symbol price now) = .ok (next, answer)) :
    ∃ fills, answer = .closed
      (if settings.enabled && price.isFinite then
        ((engine.book.ofSymbol symbol).filter (Book.closes price)).map
          (Position.closedAtPrice price now)
      else []) fills := by
  cases performed_iff.mp hperform with
  | @tick _ _ _ _ closed fills htick =>
    obtain ⟨-, hbook⟩ := of_priceTick htick
    refine ⟨fills, ?_⟩
    split at hbook
    · next hacted => rw [if_pos hacted, (Book.of_trigger hbook).2]
    · next hacted => rw [if_neg hacted, hbook.2]

/-- A price that is acted on is answered exactly when every position that it closes can be
counted once more. -/
theorem exists_tick_iff (henabled : settings.enabled = true) (hfinite : price.isFinite = true) :
    (∃ done, engine.perform settings (.tick symbol price now) = .ok done) ↔
      ∀ position ∈ engine.book.ofSymbol symbol, Book.closes price position = true →
        position.countable = true := by
  rw [← @Book.exists_trigger_iff symbol price now engine.book]
  simp only [perform, priceTick, henabled, hfinite, Bool.and_self, if_true, Fault.bind_eq_ok_iff,
    Fault.pure_eq_ok_iff]
  constructor
  · rintro ⟨done, ticked, ⟨triggered, htrigger, -⟩, -⟩
    exact ⟨triggered, htrigger⟩
  · rintro ⟨triggered, htrigger⟩
    exact ⟨_, _, ⟨triggered, htrigger, rfl⟩, rfl⟩

/-- A position that an answer gives as opened was opened by the call, with the next identifier. -/
theorem of_opened {position : Position}
    (hperform : engine.perform settings call = .ok (next, .opened (some position))) :
    ∃ ticket now, call = .register ticket now ∧
      (settings.enabled && acceptable ticket) = true ∧
      position = .create (.drawn .positions (engine.positionsDrawn + 1)) ticket now := by
  generalize hanswer : Answer.opened (some position) = answer at hperform
  cases performed_iff.mp hperform with
  | register ticket now =>
    have hposition := Answer.opened.inj hanswer
    unfold register at hposition
    split at hposition
    · next haccepted => exact ⟨ticket, now, rfl, haccepted, Option.some.inj hposition⟩
    · cases hposition
  | tick | restore | bookLive | bookShadow | prune => cases hanswer

end Engine

/-! ## Where positions come from -/

/-- The origin of a position: the engine opened it, or it was put on record.  As long as it is open
it is as it was then. -/
inductive Origin (drawn : Nat) (events : List Event) (position : Position) : Prop
  | opened {serial : Nat} (hserial : serial ≤ drawn)
      (hid : position.id = .drawn .positions serial)
      (hfresh : position.isOpen = true → position.trades = 0)
  | restored {event : Event} {given : Position} (hevent : event ∈ events)
      (hcall : event.call = .restore given) (hid : given.id = position.id)
      (hsymbol : given.symbol = position.symbol)
      (hsame : position.isOpen = true → position = given)

namespace Origin

variable {drawn : Nat} {events : List Event} {position : Position}

theorem mono {more : Nat} {event : Event} (horigin : Origin drawn events position)
    (hmore : drawn ≤ more) : Origin more (event :: events) position := by
  cases horigin with
  | opened hserial hid hfresh => exact .opened (Nat.le_trans hserial hmore) hid hfresh
  | restored hevent hcall hid hsymbol hsame =>
    exact .restored (List.mem_cons_of_mem event hevent) hcall hid hsymbol hsame

theorem settle {price : Float} {now : Instant} (horigin : Origin drawn events position) :
    Origin drawn events (Book.settle price now position) := by
  cases horigin with
  | opened hserial hid hfresh =>
    apply Origin.opened hserial (by rwa [Book.id_settle])
    intro hopen
    have hsettled := Book.settle_eq_of_isOpen hopen
    rw [hsettled] at hopen ⊢
    exact hfresh hopen
  | restored hevent hcall hid hsymbol hsame =>
    apply Origin.restored hevent hcall (by rwa [Book.id_settle]) (by rwa [Book.symbol_settle])
    intro hopen
    have hsettled := Book.settle_eq_of_isOpen hopen
    rw [hsettled] at hopen ⊢
    exact hsame hopen

end Origin

/-- Every position is listed under its symbol, and has an origin. -/
theorem origin_of_mem {settings : Settings.Shadow} {events : List Event} {engine : Engine}
    (htrace : Trace (Engine.perform settings) .empty events engine) :
    ∀ {symbol position}, position ∈ engine.book.ofSymbol symbol →
      position.symbol = symbol ∧ Origin engine.positionsDrawn events position := by
  induction htrace with
  | start => exact fun hposition => nomatch hposition
  | event past done ih =>
    intro symbol position hposition
    have hdrawn := Engine.positionsDrawn_perform done
    rw [Engine.ofSymbol_perform done] at hposition
    cases Call.yields_of_mem_revise hposition with
    | kept hbefore =>
      obtain ⟨hsymbol, horigin⟩ := ih hbefore
      exact ⟨hsymbol, horigin.mono (by omega)⟩
    | settled hbefore =>
      obtain ⟨hsymbol, horigin⟩ := ih hbefore
      exact ⟨by rwa [Book.symbol_settle], horigin.settle.mono (by omega)⟩
    | opened haccepted hsymbol =>
      refine ⟨hsymbol, .opened (Nat.le_of_eq ?_) rfl fun _ => rfl⟩
      rw [hdrawn, Call.draws, if_pos haccepted]
    | restored hsymbol =>
      exact ⟨hsymbol, .restored List.mem_cons_self rfl rfl rfl fun _ => rfl⟩

end Shadow

/-! ## The engine of a governor -/

/-- The call of the shadow engine that a command makes when the clock shows a time. -/
def Command.shadowCall? (clock : Instant) : Command → Option Shadow.Call
  | .registerShadow ticket => some (.register ticket clock)
  | .priceTick symbol price => some (.tick symbol price clock)
  | .restorePosition position => some (.restore position)
  | .reportLive symbol result => some (.bookLive symbol result)
  | .bookLive symbol result => some (.bookLive symbol result)
  | .reportShadow symbol result => some (.bookShadow symbol result)
  | .pruneExpired now => some (.prune now)
  | _ => none

def Turn.shadowCall? (turn : Turn) : Option Shadow.Call :=
  turn.command.shadowCall? turn.before.clock

namespace Governor

theorem shadow_forwardFills (fills : List Shadow.BookedFill) (governor : Governor) :
    (fills.foldl Governor.forwardFill governor).shadow = governor.shadow := by
  induction fills generalizing governor with
  | nil => rfl
  | cons fill rest ih => exact ih (governor.forwardFill fill)

/-- A step answers the call that its command makes of the shadow engine, and leaves the engine as
it is where it makes none. -/
theorem shadow_of_step {governor next : Governor} {command : Command}
    {answer : Except Refusal Reply} (hstep : governor.step command = .ok (next, answer)) :
    match command.shadowCall? governor.clock with
    | some call => ∃ given,
        governor.shadow.perform governor.settings.shadow call = .ok (next.shadow, given)
    | none => next.shadow = governor.shadow := by
  cases command with
  | registerShadow ticket =>
    simp only [step, answering, Except.ok.injEq, Prod.mk.injEq] at hstep
    rw [← hstep.1]
    exact ⟨_, rfl⟩
  | priceTick symbol price =>
    simp only [step, answering, Governor.priceTick, Fault.bind_eq_ok_iff, Fault.pure_eq_ok_iff,
      Except.ok.injEq, Prod.mk.injEq, Prod.exists] at hstep
    obtain ⟨_, _, ⟨shadow, closed, fills, htick, rfl, rfl⟩, rfl, -⟩ := hstep
    rw [shadow_forwardFills]
    exact ⟨.closed closed fills, Fault.bind_eq_ok_iff.mpr ⟨_, htick, rfl⟩⟩
  | restorePosition position =>
    simp only [step, answering, Except.ok.injEq, Prod.mk.injEq] at hstep
    rw [← hstep.1]
    exact ⟨_, rfl⟩
  | reportLive symbol result | bookLive symbol result =>
    simp only [step, answering, Except.ok.injEq, Prod.mk.injEq] at hstep
    rw [← hstep.1]
    exact ⟨_, rfl⟩
  | reportShadow symbol result =>
    simp only [step, answering, Except.ok.injEq, Prod.mk.injEq] at hstep
    rw [← hstep.1, reportShadow, shadow_forwardFills]
    exact ⟨_, rfl⟩
  | pruneExpired now =>
    simp only [step, answering, Governor.pruneExpired, Fault.bind_eq_ok_iff, Fault.pure_eq_ok_iff,
      Except.ok.injEq, Prod.mk.injEq, Prod.exists] at hstep
    obtain ⟨_, _, ⟨_, _, -, _, _, -, shadow, count, hprune, _, -, _, -, rfl, rfl⟩, rfl, -⟩ := hstep
    exact ⟨.pruned count, Fault.bind_eq_ok_iff.mpr ⟨_, hprune, rfl⟩⟩
  | advance span =>
    simp only [step, answering, advance, Fault.bind_eq_ok_iff, Fault.pure_eq_ok_iff,
      Except.ok.injEq, Prod.mk.injEq] at hstep
    obtain ⟨_, ⟨_, -, rfl⟩, rfl, -⟩ := hstep
    rfl
  | fill order price spread filledAt =>
    simp only [step, answering, Governor.fill, Fault.bind_eq_ok_iff, Fault.pure_eq_ok_iff,
      Except.ok.injEq, Prod.mk.injEq, Prod.exists] at hstep
    obtain ⟨_, _, ⟨_, _, -, rfl, rfl⟩, rfl, -⟩ := hstep
    rfl
  | setClock _ | submit _ | recordTradeResult _ _ | resetMonitor | setKillSwitch _ | setMode _
  | clearAlerts =>
    simp only [step, answering, Except.ok.injEq, Prod.mk.injEq] at hstep
    rw [← hstep.1]
    rfl
  | _ =>
    rw [eq_withArena_of_step rfl (fun _ => Command.noConfusion) hstep]
    rfl

end Governor

/-- The shadow engine of a governor goes through a trace of the calls that the turns of its history
make of it. -/
theorem History.exists_shadow_trace {start governor : Governor} {turns : List Turn}
    (hhistory : History start turns governor) :
    ∃ events, Trace (Shadow.Engine.perform start.settings.shadow) start.shadow events
        governor.shadow ∧
      events.map Event.call = turns.filterMap Turn.shadowCall? := by
  induction hhistory with
  | start => exact ⟨[], .start, rfl⟩
  | @turn turns before next command answer past step ih =>
    obtain ⟨events, htrace, hcalls⟩ := ih
    have hdone := Governor.shadow_of_step step
    rw [past.settings_eq] at hdone
    cases hcall : command.shadowCall? before.clock with
    | none =>
      have hturn : Turn.shadowCall? ⟨before, command, answer, next⟩ = none := hcall
      rw [hcall] at hdone
      exact ⟨events, hdone ▸ htrace, by rw [List.filterMap_cons_none hturn, hcalls]⟩
    | some call =>
      have hturn : Turn.shadowCall? ⟨before, command, answer, next⟩ = some call := hcall
      rw [hcall] at hdone
      obtain ⟨given, hperform⟩ := hdone
      exact ⟨_, htrace.event hperform, by
        rw [List.filterMap_cons_some hturn, List.map_cons, hcalls]⟩

end ExposureControl
