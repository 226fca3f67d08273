import ExposureControl.Proofs.PositionFate

/-!
# The life of a shadow position

A position that the engine opened stays as it is until the first price of its symbol that lies at
or beyond its stop or its target.  That price closes it, and is answered with it.  From then on it
stays as it was closed, until it is pruned.
-/

namespace ExposureControl.Shadow

section

variable {settings : Settings.Shadow} {later past : List Event} {opening : Event}
  {engine : Engine} {position : Position}

/-- As long as no price takes it out, a position is on record as it was opened, and no call returns
it. -/
theorem waits_of_not_takesOut
    (htrace : Trace (Engine.perform settings) .empty (later ++ opening :: past) engine)
    (hopened : opening.answer = .opened (some position))
    (hrestores : ∀ event ∈ later ++ opening :: past,
      event.call.restores position.id position.symbol = false) (hopen : position.isOpen = true)
    (htakes : ∀ event ∈ later, event.call.takesOut position = false) :
    recordsOf position.id (engine.book.ofSymbol position.symbol) = [position] ∧
      ∀ event ∈ later, event.answer.returned position.id position.symbol = [] := by
  constructor
  · rw [recordsOf_eq_fate htrace hopened hrestores,
      Call.fate_of_not_takesOut hopen (by simpa using htakes), Option.toList_some]
  · intro event hevent
    obtain ⟨newer, older, rfl⟩ := List.append_of_mem hevent
    have holder : ∀ call ∈ older.map Event.call, call.takesOut position = false := by
      intro call hcall
      obtain ⟨earlier, hearlier, rfl⟩ := List.mem_map.mp hcall
      exact htakes earlier (List.mem_append_right newer (List.mem_cons_of_mem event hearlier))
    rw [returned_eq_closing htrace hopened hrestores, Call.fate_of_not_takesOut hopen holder,
      Option.bind_some, Call.closing_eq_none_of_not_takesOut (htakes event hevent),
      Option.toList_none]

/-- The first price that takes a position out returns it as it closes it, and no other call does.
From then on that is its record, until it is pruned. -/
theorem closes_of_takesOut {since waiting : List Event} {closing : Event} {price : Float}
    {now : Instant}
    (htrace : Trace (Engine.perform settings) .empty
      (since ++ closing :: waiting ++ opening :: past) engine)
    (hopened : opening.answer = .opened (some position))
    (hrestores : ∀ event ∈ since ++ closing :: waiting ++ opening :: past,
      event.call.restores position.id position.symbol = false)
    (henabled : settings.enabled = true) (hopen : position.isOpen = true)
    (hcall : closing.call = .tick position.symbol price now)
    (htaken : closing.call.takesOut position = true)
    (hwaiting : ∀ event ∈ waiting, event.call.takesOut position = false) :
    closing.answer.returned position.id position.symbol = [position.closedAtPrice price now] ∧
      (∀ event ∈ since ++ waiting, event.answer.returned position.id position.symbol = []) ∧
      recordsOf position.id (engine.book.ofSymbol position.symbol) =
        if since.any fun event => event.call.prunes settings now then []
        else [position.closedAtPrice price now] := by
  rw [hcall] at htaken
  have hwaited : ∀ call ∈ waiting.map Event.call, call.takesOut position = false := by
    simpa using hwaiting
  refine ⟨?_, ?_, ?_⟩
  · rw [returned_eq_closing htrace hopened hrestores, Call.fate_of_not_takesOut hopen hwaited,
      Option.bind_some, hcall, Call.closing_of_takesOut henabled hopen htaken, Option.toList_some]
  · intro event hevent
    cases List.mem_append.mp hevent with
    | inl hsince =>
      obtain ⟨newer, older, rfl⟩ := List.append_of_mem hsince
      have hsplit : newer ++ event :: older ++ closing :: waiting =
          newer ++ event :: (older ++ closing :: waiting) := by simp
      rw [hsplit] at htrace hrestores
      rw [returned_eq_closing htrace hopened hrestores, List.map_append, List.map_cons, hcall,
        Call.fate_of_takesOut henabled hopen htaken hwaited]
      split
      · rfl
      · rw [Option.bind_some, Call.closing_eq_none_of_closed rfl, Option.toList_none]
    | inr hbefore =>
      have hsplit : since ++ closing :: waiting ++ opening :: past =
          (since ++ [closing]) ++ (waiting ++ opening :: past) := by simp
      rw [hsplit] at htrace hrestores
      obtain ⟨middle, hmiddle, -⟩ := htrace.of_append
      exact (waits_of_not_takesOut hmiddle hopened (fun earlier hearlier =>
        hrestores earlier (List.mem_append_right _ hearlier)) hopen hwaiting).2 event hbefore
  · rw [recordsOf_eq_fate htrace hopened hrestores, List.map_append, List.map_cons, hcall,
      Call.fate_of_takesOut henabled hopen htaken hwaited, List.any_map]
    exact apply_ite Option.toList _ _ _

end

/-! ## The life of a position -/

def Position.takenOut (price : Float) (now : Instant) (position : Position) : Position :=
  { position with
    status := .closed
    exitPrice := some price
    closedAt := some now
    profit := some ((price - position.ticket.entryPrice) * position.ticket.quantity *
      position.ticket.side.sign)
    trades := 1 }

/-- The life of a position after its opening, where the `later` ones among the events led on to an
engine. -/
structure Life (settings : Settings.Shadow) (events later : List Event) (engine : Engine)
    (position : Position) : Prop where
  isOpen : position.isOpen = true
  /-- As long as no price takes it out, it is on record as it was opened. -/
  waits : (∀ event ∈ later, event.call.takesOut position = false) →
    recordsOf position.id (engine.book.ofSymbol position.symbol) = [position] ∧
      ∀ event ∈ later, event.answer.returned position.id position.symbol = []
  /-- The first price that takes it out returns it as it closes it, and no other call does.  From
  then on that is its record, until it is pruned. -/
  closes : ∀ {since waiting : List Event} {closing : Event} {price : Float} {now : Instant},
    later = since ++ closing :: waiting → closing.call = .tick position.symbol price now →
    closing.call.takesOut position = true →
    (∀ event ∈ waiting, event.call.takesOut position = false) →
    closing.answer.returned position.id position.symbol = [position.takenOut price now] ∧
      (∀ event ∈ since ++ waiting, event.answer.returned position.id position.symbol = []) ∧
      recordsOf position.id (engine.book.ofSymbol position.symbol) =
        if since.any fun event => event.call.prunes settings now then []
        else [position.takenOut price now]
  /-- The next price of its symbol is answered unless it closes a position that was closed too
  often. -/
  answered : ∀ (price : Float) (now : Instant), price.isFinite = true →
    ((∃ done, engine.perform settings (.tick position.symbol price now) = .ok done) ↔
      ∀ other ∈ engine.book.ofSymbol position.symbol, Book.closes price other = true →
        other.countable = true)
  /-- An open position that was closed too often was put on record that way. -/
  full : ∀ other ∈ engine.book.ofSymbol position.symbol, other.isOpen = true →
    other.countable = false → ∃ event ∈ events, event.call = .restore other
  /-- Pruning keeps the open positions of every symbol. -/
  kept : ∀ {now : Instant} {next : Engine} {answer : Answer},
    engine.perform settings (.prune now) = .ok (next, answer) →
    ∀ symbol, (next.book.ofSymbol symbol).filter Position.isOpen =
      (engine.book.ofSymbol symbol).filter Position.isOpen

/-- Where nothing was put on record under its identifier and symbol, every position that the engine
opened has such a life. -/
theorem opened_position_life {settings : Settings.Shadow} {later past : List Event}
    {opening : Event} {engine : Engine} {position : Position}
    (htrace : Trace (Engine.perform settings) .empty (later ++ opening :: past) engine)
    (hopened : opening.answer = .opened (some position))
    (hrestores : ∀ event ∈ later ++ opening :: past,
      event.call.restores position.id position.symbol = false) :
    Life settings (later ++ opening :: past) later engine position := by
  obtain ⟨-, hdone, -⟩ := htrace.split
  rw [hopened] at hdone
  obtain ⟨ticket, opened, -, haccepted, hposition⟩ := Engine.of_opened hdone
  have hopen : position.isOpen = true := by rw [hposition]; rfl
  have henabled : settings.enabled = true := (Bool.and_eq_true_iff.mp haccepted).1
  have htakenOut : ∀ price now, position.closedAtPrice price now = position.takenOut price now := by
    intro price now
    rw [hposition]
    rfl
  constructor
  case isOpen => exact hopen
  case waits => exact waits_of_not_takesOut htrace hopened hrestores hopen
  case closes =>
    intro since waiting closing price now hlater hcall htaken hwaiting
    subst hlater
    rw [← htakenOut]
    exact closes_of_takesOut htrace hopened hrestores henabled hopen hcall htaken hwaiting
  case answered => exact fun price now hfinite => Engine.exists_tick_iff henabled hfinite
  case full =>
    intro other hother hisOpen hfull
    obtain ⟨-, horigin⟩ := origin_of_mem htrace hother
    cases horigin with
    | opened _ _ hfresh =>
      rw [Position.countable, hfresh hisOpen] at hfull
      cases hfull
    | @restored event given hevent hcall _ _ hsame =>
      exact ⟨event, hevent, hsame hisOpen ▸ hcall⟩
  case kept =>
    intro now next answer hperform symbol
    rw [Engine.ofSymbol_perform hperform]
    exact Call.filter_isOpen_prune symbol _ now

/-- A purchase at 100 with its stop at 95 and its target at 110. -/
def purchase : Ticket where
  symbol := "BTC"
  side := .buy
  entryPrice := 100.0
  quantity := 2.0
  stopLoss := 95.0
  takeProfit := 110.0

/-- Calls of which the first one opens a position make a trace from that opening. -/
theorem exists_trace_of_opening {ticket : Ticket} {calls : List Call} {check : Engine → Bool}
    (haccepted : Engine.acceptable ticket = true)
    (hreplays : Trace.replays (Engine.perform {}) .empty (.register ticket ⟨0⟩ :: calls)
      (fun _ engine => check engine) = true) :
    ∃ later opening engine, Trace (Engine.perform {}) .empty (later ++ [opening]) engine ∧
      opening.call = .register ticket ⟨0⟩ ∧
      opening.answer = .opened (some (.create (.drawn .positions 1) ticket ⟨0⟩)) ∧
      (later.map Event.call).reverse = calls ∧ check engine = true := by
  obtain ⟨events, engine, htrace, hcalls, hcheck⟩ := Trace.exists_of_replays hreplays
  cases List.eq_nil_or_concat events with
  | inl hnil =>
    subst hnil
    cases hcalls
  | inr hconcat =>
    obtain ⟨later, opening, rfl⟩ := hconcat
    rw [List.concat_eq_append] at htrace hcalls
    rw [List.map_append, List.reverse_append] at hcalls
    obtain ⟨hcall, hlater⟩ := List.cons.inj hcalls
    obtain ⟨hstart, hdone, -⟩ := htrace.split
    refine ⟨later, opening, engine, htrace, hcall, ?_, hlater, hcheck⟩
    generalize opening.before = before at hstart hdone
    cases hstart
    rw [hcall, Engine.perform, Engine.register, haccepted] at hdone
    exact (Prod.ext_iff.mp (Except.ok.inj hdone)).2.symm

/-- The purchase waits at 103 and is closed at 111. -/
theorem opened_position_life_of_purchase :
    ∃ later opening engine, Trace (Engine.perform {}) .empty (later ++ [opening]) engine ∧
      (later.map Event.call).reverse = [.tick "BTC" 103.0 ⟨1⟩, .tick "BTC" 111.0 ⟨2⟩] ∧
      Life {} (later ++ [opening]) later engine (.create (.drawn .positions 1) purchase ⟨0⟩) ∧
      recordsOf (.drawn .positions 1) (engine.book.ofSymbol "BTC") =
        [(Position.create (.drawn .positions 1) purchase ⟨0⟩).takenOut 111.0 ⟨2⟩] := by
  have hreplays : Trace.replays (Engine.perform {}) .empty
      [.register purchase ⟨0⟩, .tick "BTC" 103.0 ⟨1⟩, .tick "BTC" 111.0 ⟨2⟩]
      (fun _ _ => true) = true := by decide +kernel
  obtain ⟨later, opening, engine, htrace, hcall, hanswer, hcalls, -⟩ :=
    exists_trace_of_opening (by decide +kernel) hreplays
  have hreversed : later.map Event.call = [.tick "BTC" 111.0 ⟨2⟩, .tick "BTC" 103.0 ⟨1⟩] := by
    simpa using congrArg List.reverse hcalls
  obtain ⟨closing, _, rfl, hclosing, hrest⟩ := List.map_eq_cons_iff.mp hreversed
  obtain ⟨waiting, _, rfl, hwaiting, hnil⟩ := List.map_eq_cons_iff.mp hrest
  rw [List.map_eq_nil_iff.mp hnil] at htrace hcalls
  have hlife := opened_position_life htrace hanswer (by
    simp [hcall, hclosing, hwaiting, Call.restores])
  refine ⟨_, opening, engine, htrace, hcalls, hlife, ?_⟩
  have hcloses := hlife.closes (show [closing, waiting] = [] ++ closing :: [waiting] from rfl)
    hclosing (by rw [hclosing]; decide +kernel)
    (List.forall_mem_singleton.mpr (by rw [hwaiting]; decide +kernel))
  exact hcloses.2.2

/-- An open record whose count of closes is full. -/
def spent : Position :=
  { Position.create (.given ⟨7⟩) purchase ⟨0⟩ with trades := Counter.halfWordSize - 1 }

/-- Where a record with a full count was put beside the purchase, the first price that takes the
purchase out stops the engine instead of closing it. -/
theorem taking_out_stops_beside_spent_record :
    ∃ later opening engine, Trace (Engine.perform {}) .empty (later ++ [opening]) engine ∧
      opening.answer = .opened (some (.create (.drawn .positions 1) purchase ⟨0⟩)) ∧
      (later.map Event.call) = [.restore spent] ∧
      spent.id ≠ .drawn .positions 1 ∧
      (Call.tick "BTC" 111.0 ⟨1⟩).takesOut (.create (.drawn .positions 1) purchase ⟨0⟩) = true ∧
      engine.perform {} (.tick "BTC" 111.0 ⟨1⟩) = .error .counterOverflow := by
  have hreplays : Trace.replays (Engine.perform {}) .empty
      [.register purchase ⟨0⟩, .restore spent]
      (fun _ engine => match engine.perform {} (.tick "BTC" 111.0 ⟨1⟩) with
        | .error fault => fault = .counterOverflow
        | .ok _ => false) = true := by decide +kernel
  obtain ⟨later, opening, engine, htrace, hcall, hanswer, hcalls, hcheck⟩ :=
    exists_trace_of_opening (by decide +kernel) hreplays
  have hreversed : later.map Event.call = [.restore spent] := by
    simpa using congrArg List.reverse hcalls
  refine ⟨later, opening, engine, htrace, hanswer, hreversed, by decide, by decide +kernel, ?_⟩
  split at hcheck
  · next fault hstopped => rw [hstopped, of_decide_eq_true hcheck]
  · cases hcheck

end ExposureControl.Shadow
