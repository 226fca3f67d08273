import ExposureControl.Proofs.ShadowRun

/-!
# The fate of a shadow position

What calls make of one position: a price may close it, and pruning may discard it once it is
closed.  The only record of a position that the engine opened is what the calls since then made of
it, and an answer returns it exactly if the call closes what was left of it.
-/

namespace ExposureControl.Shadow

/-! ## What calls make of one position -/

namespace Call

section

variable (settings : Settings.Shadow) (symbol : String)

/-- A position of a symbol as a call closes and returns it, if it does. -/
def closing : Call → Position → Option Position
  | .tick ticked price now, position =>
    if settings.enabled && price.isFinite && ticked = symbol && Book.closes price position then
      some (position.closedAtPrice price now)
    else none
  | _, _ => none

/-- Whether a call takes a position off record. -/
def discards : Call → Position → Bool
  | .prune now, position =>
    match cutoff settings now with
    | .ok cutoff => !Book.outlives cutoff position
    | .error _ => false
  | _, _ => false

/-- A position of a symbol after a call that does not put a record in its place. -/
def amend (call : Call) (position : Position) : Option Position :=
  if call.discards settings position then none
  else some ((call.closing settings symbol position).getD position)

def fate (position : Position) : List Call → Option Position
  | [] => some position
  | call :: earlier => (fate position earlier).bind (call.amend settings symbol)

def prunes (closedAt : Instant) : Call → Bool
  | .prune now =>
    match cutoff settings now with
    | .ok cutoff => closedAt < cutoff
    | .error _ => false
  | _ => false

end

/-- Whether a call is a price that takes a position out: a finite one of its symbol, at or beyond
its stop or its target. -/
def takesOut (position : Position) : Call → Bool
  | .tick symbol price _ =>
    symbol = position.symbol && price.isFinite && position.exitTriggered price
  | _ => false

/-- Whether a call puts a position on record under an identifier and a symbol. -/
def restores (id : ObjectId) (symbol : String) : Call → Bool
  | .restore position => position.id = id && position.symbol = symbol
  | _ => false

variable {settings : Settings.Shadow} {symbol : String} {call : Call} {position : Position}

/-- A position that a call closes is taken out by it, and was open. -/
theorem of_closing {closed : Position}
    (hclosing : call.closing settings position.symbol position = some closed) :
    position.isOpen = true ∧ call.takesOut position = true ∧
      ∃ price now, call = .tick position.symbol price now ∧
        closed = position.closedAtPrice price now := by
  unfold closing at hclosing
  split at hclosing
  · next symbol price now =>
    split at hclosing
    · next hcloses =>
      simp only [Book.closes, Bool.and_eq_true, decide_eq_true_eq] at hcloses
      obtain ⟨⟨⟨-, hfinite⟩, rfl⟩, hopen, hexit⟩ := hcloses
      refine ⟨hopen, ?_, price, now, rfl, (Option.some.inj hclosing).symm⟩
      simp [takesOut, hfinite, hexit]
    · cases hclosing
  · cases hclosing

/-- An open position is closed by the price that takes it out. -/
theorem closing_of_takesOut {price : Float} {now : Instant} (henabled : settings.enabled = true)
    (hopen : position.isOpen = true)
    (htakes : (tick position.symbol price now).takesOut position = true) :
    (tick position.symbol price now).closing settings position.symbol position =
      some (position.closedAtPrice price now) := by
  simp only [takesOut, decide_true, Bool.true_and, Bool.and_eq_true] at htakes
  simp [closing, Book.closes, henabled, hopen, htakes]

theorem closing_eq_none_of_not_takesOut (htakes : call.takesOut position = false) :
    call.closing settings position.symbol position = none := by
  rw [Option.eq_none_iff_forall_not_mem]
  intro closed hclosing
  have htaken := (of_closing hclosing).2.1
  rw [htakes] at htaken
  cases htaken

theorem closing_eq_none_of_closed (hclosed : position.isOpen = false) :
    call.closing settings symbol position = none := by
  unfold closing
  split
  · rw [Book.closes, hclosed, Bool.false_and, Bool.and_false, if_neg Bool.false_ne_true]
  · rfl

theorem discards_eq_false_of_isOpen (hopen : position.isOpen = true) :
    call.discards settings position = false := by
  unfold discards
  split
  · split
    · rw [Book.outlives_of_isOpen hopen, Bool.not_true]
    · rfl
  · rfl

theorem discards_of_closed {closedAt : Instant} (hclosed : position.isOpen = false)
    (htime : position.closedAt = some closedAt) :
    call.discards settings position = call.prunes settings closedAt := by
  cases call with
  | prune now =>
    dsimp only [discards, prunes]
    cases cutoff settings now with
    | error fault => rfl
    | ok limit =>
      dsimp only [Book.outlives]
      rw [hclosed, htime, Bool.false_or, Option.all_some, ← decide_not]
      exact decide_eq_decide.mpr Int.not_le
  | register _ _ | tick _ _ _ | restore _ | bookLive _ _ | bookShadow _ _ => rfl

/-- An open position stays as it is unless a price takes it out. -/
theorem amend_of_not_takesOut (hopen : position.isOpen = true)
    (htakes : call.takesOut position = false) :
    call.amend settings position.symbol position = some position := by
  rw [amend, discards_eq_false_of_isOpen hopen, if_neg Bool.false_ne_true,
    closing_eq_none_of_not_takesOut htakes, Option.getD_none]

/-- A closed position stays as it is unless it is pruned. -/
theorem amend_of_closed {closedAt : Instant} (hclosed : position.isOpen = false)
    (htime : position.closedAt = some closedAt) :
    call.amend settings symbol position =
      if call.prunes settings closedAt then none else some position := by
  rw [amend, discards_of_closed hclosed htime, closing_eq_none_of_closed hclosed,
    Option.getD_none]

theorem fate_of_not_takesOut {calls : List Call} (hopen : position.isOpen = true)
    (htakes : ∀ call ∈ calls, call.takesOut position = false) :
    fate settings position.symbol position calls = some position := by
  induction calls with
  | nil => rfl
  | cons call earlier ih =>
    obtain ⟨hcall, hearlier⟩ := List.forall_mem_cons.mp htakes
    rw [fate, ih hearlier]
    exact amend_of_not_takesOut hopen hcall

theorem fate_of_closed {calls : List Call} {closedAt : Instant}
    (hclosed : position.isOpen = false) (htime : position.closedAt = some closedAt) :
    fate settings symbol position calls =
      if calls.any (prunes settings closedAt) then none else some position := by
  induction calls with
  | nil => rfl
  | cons call earlier ih =>
    rw [fate, ih, List.any_cons]
    cases hpruned : earlier.any (prunes settings closedAt) with
    | true => rw [Bool.or_true]; rfl
    | false =>
      rw [Bool.or_false, if_neg Bool.false_ne_true]
      exact amend_of_closed hclosed htime

theorem fate_append (later earlier : List Call) :
    fate settings symbol position (later ++ earlier) =
      (fate settings symbol position earlier).bind fun middle =>
        fate settings symbol middle later := by
  induction later with
  | nil => rw [List.nil_append]; exact (Option.bind_fun_some _).symm
  | cons call later ih =>
    rw [List.cons_append, fate, ih, Option.bind_assoc]
    rfl

/-- The first price that takes an open position out closes it, and it stays so until it is
pruned. -/
theorem fate_of_takesOut {waiting : List Call} {price : Float} {now : Instant}
    (henabled : settings.enabled = true) (hopen : position.isOpen = true)
    (htaken : (tick position.symbol price now).takesOut position = true)
    (hwaiting : ∀ call ∈ waiting, call.takesOut position = false) (since : List Call) :
    fate settings position.symbol position (since ++ tick position.symbol price now :: waiting) =
      if since.any (prunes settings now) then none
      else some (position.closedAtPrice price now) := by
  have hclosed : fate settings position.symbol position
      (tick position.symbol price now :: waiting) = some (position.closedAtPrice price now) := by
    rw [fate, fate_of_not_takesOut hopen hwaiting, Option.bind_some, amend,
      discards_eq_false_of_isOpen hopen, if_neg Bool.false_ne_true,
      closing_of_takesOut henabled hopen htaken, Option.getD_some]
  rw [fate_append, hclosed, Option.bind_some]
  exact fate_of_closed rfl rfl

end Call

/-! ## What calls make of the records of an identifier -/

def recordsOf (id : ObjectId) (positions : List Position) : List Position :=
  positions.filter fun position => position.id = id

theorem recordsOf_append (id : ObjectId) (earlier later : List Position) :
    recordsOf id (earlier ++ later) = recordsOf id earlier ++ recordsOf id later :=
  List.filter_append earlier later

theorem recordsOf_self (position : Position) : recordsOf position.id [position] = [position] :=
  List.filter_cons_of_pos (decide_eq_true rfl)

theorem recordsOf_of_ne {id : ObjectId} {position : Position} (hid : position.id ≠ id) :
    recordsOf id [position] = [] :=
  List.filter_cons_of_neg (by simpa using hid)

/-- The records of an identifier and a symbol that an answer returns as closed. -/
def Answer.returned (id : ObjectId) (symbol : String) : Answer → List Position
  | .closed positions _ =>
    positions.filter fun position => position.id = id && position.symbol = symbol
  | _ => []

namespace Call

variable {settings : Settings.Shadow} {call : Call} {id : ObjectId} {symbol : String}
  {drawn : Nat} {positions : List Position}

theorem amend_tick (ticked : String) (price : Float) (now : Instant) :
    (tick ticked price now).amend settings symbol = fun position =>
      some (if settings.enabled && price.isFinite && ticked = symbol then
        Book.settle price now position else position) := by
  funext position
  have hkept : (tick ticked price now).discards settings position = false := rfl
  rw [amend, hkept, if_neg Bool.false_ne_true, closing]
  unfold Book.settle
  cases settings.enabled && price.isFinite && decide (ticked = symbol) with
  | false => rfl
  | true =>
    rw [Bool.true_and, if_pos rfl]
    split <;> rfl

theorem amend_prune (now : Instant) :
    (prune now).amend settings symbol =
      Option.guard fun position => !(prune now).discards settings position := by
  funext position
  by_cases hdiscards : (prune now).discards settings position = true
  · rw [amend, if_pos hdiscards, Option.guard, if_neg (by simp [hdiscards])]
  · rw [amend, if_neg hdiscards, Option.guard, if_pos (by simp [hdiscards])]
    rfl

theorem filter_isOpen_prune (symbol : String) (positions : List Position) (now : Instant) :
    ((prune now).revise settings drawn symbol positions).filter Position.isOpen =
      positions.filter Position.isOpen := by
  dsimp only [revise]
  split
  · rw [List.filter_filter]
    apply List.filter_congr
    intro position _
    cases hopen : position.isOpen with
    | false => rfl
    | true => rw [Book.outlives_of_isOpen hopen, Bool.and_self]
  · rfl

theorem recordsOf_revise (hrestores : call.restores id symbol = false)
    (hold : id ≠ .drawn .positions (drawn + 1)) :
    recordsOf id (call.revise settings drawn symbol positions) =
      (recordsOf id positions).filterMap (call.amend settings symbol) := by
  cases call with
  | register ticket now =>
    have hamend : (register ticket now).amend settings symbol = some := rfl
    rw [hamend, List.filterMap_some, revise]
    split
    · rw [recordsOf_append, recordsOf_of_ne hold.symm, List.append_nil]
    · rfl
  | tick ticked price now =>
    rw [amend_tick, revise]
    split
    · rw [List.filterMap_eq_map', recordsOf, List.filter_map]
      simp only [Function.comp_def, Book.id_settle, recordsOf]
    · rw [List.filterMap_some]
  | restore position =>
    have hamend : (restore position).amend settings symbol = some := rfl
    rw [hamend, List.filterMap_some, revise]
    split
    · next hsymbol =>
      have hid : position.id ≠ id := by simpa [restores, hsymbol] using hrestores
      rw [recordsOf_append, recordsOf_of_ne hid, List.append_nil]
      exact Book.filter_extract hid.symm _
    · rfl
  | prune now =>
    rw [amend_prune, List.filterMap_eq_filter]
    dsimp only [revise, discards, recordsOf]
    cases cutoff settings now with
    | error fault => simp
    | ok limit => simp [List.filter_filter, Bool.and_comm]
  | bookLive _ _ | bookShadow _ _ =>
    exact List.filterMap_some.symm

end Call

section

variable {settings : Settings.Shadow} {events later past : List Event} {opening : Event}
  {engine next : Engine} {call : Call} {answer : Answer} {id : ObjectId} {symbol : String}
  {position : Position}

/-- What an answer returns of its symbol are the records that were closed. -/
theorem returned_closed {positions : List Position} {price : Float} {now : Instant}
    {fills : List BookedFill} (hfiled : ∀ position ∈ positions, position.symbol = symbol) :
    (Answer.closed ((positions.filter (Book.closes price)).map
        (Position.closedAtPrice price now)) fills).returned id symbol =
      (recordsOf id positions).filterMap fun position =>
        if Book.closes price position then some (position.closedAtPrice price now) else none := by
  induction positions with
  | nil => rfl
  | cons first rest ih =>
    obtain ⟨hfirst, hrest⟩ := List.forall_mem_cons.mp hfiled
    have htail := ih hrest
    simp only [Answer.returned, recordsOf] at htail ⊢
    by_cases hcloses : Book.closes price first = true <;> by_cases hid : first.id = id <;>
      simp_all

/-- An answer returns nothing of another symbol. -/
theorem returned_closed_of_ne {positions : List Position} {price : Float} {now : Instant}
    {fills : List BookedFill} {ticked : String} (hticked : ticked ≠ symbol)
    (hfiled : ∀ position ∈ positions, position.symbol = ticked) :
    (Answer.closed ((positions.filter (Book.closes price)).map
        (Position.closedAtPrice price now)) fills).returned id symbol = [] := by
  apply List.filter_eq_nil_iff.mpr
  intro closed hclosed
  obtain ⟨position, hposition, rfl⟩ := List.mem_map.mp hclosed
  have hsymbol := hfiled position (List.mem_filter.mp hposition).1
  simp [hsymbol, hticked]

theorem returned_perform (htrace : Trace (Engine.perform settings) .empty events engine)
    (hperform : engine.perform settings call = .ok (next, answer)) :
    answer.returned id symbol =
      (recordsOf id (engine.book.ofSymbol symbol)).filterMap (call.closing settings symbol) := by
  have hnone : ∀ positions : List Position,
      positions.filterMap (fun _ => (none : Option Position)) = [] := by simp
  cases call with
  | tick ticked price now =>
    obtain ⟨fills, rfl⟩ := Engine.answer_tick hperform
    have hfiled : ∀ position ∈ engine.book.ofSymbol ticked, position.symbol = ticked :=
      fun position hposition => (origin_of_mem htrace hposition).1
    have hclosing : (Call.tick ticked price now).closing settings symbol = fun position =>
        if settings.enabled && price.isFinite && ticked = symbol && Book.closes price position then
          some (position.closedAtPrice price now)
        else none := rfl
    rw [hclosing]
    cases settings.enabled && price.isFinite with
    | false => exact (hnone _).symm
    | true =>
      rw [if_pos rfl]
      by_cases hticked : ticked = symbol
      · subst hticked
        rw [returned_closed hfiled]
        simp only [decide_true, Bool.true_and]
      · rw [returned_closed_of_ne hticked hfiled]
        simp only [hticked, decide_false, Bool.and_false, Bool.false_and, Bool.false_eq_true,
          if_false, hnone]
  | prune now =>
    simp only [Engine.perform, Fault.bind_eq_ok_iff, Fault.pure_eq_ok_iff, Prod.mk.injEq,
      Prod.exists] at hperform
    obtain ⟨_, count, -, -, rfl⟩ := hperform
    exact (hnone _).symm
  | register _ _ | restore _ | bookLive _ _ | bookShadow _ _ =>
    simp only [Engine.perform, Except.ok.injEq, Prod.mk.injEq] at hperform
    rw [← hperform.2]
    exact (hnone _).symm

/-- An identifier that is still to be drawn has no records, unless it was put on record. -/
theorem recordsOf_eq_nil (htrace : Trace (Engine.perform settings) .empty events engine)
    (hid : id = .drawn .positions (engine.positionsDrawn + 1))
    (hrestores : ∀ event ∈ events, event.call.restores id symbol = false) :
    recordsOf id (engine.book.ofSymbol symbol) = [] := by
  rw [recordsOf, List.filter_eq_nil_iff]
  intro position hposition hsame
  rw [decide_eq_true_eq] at hsame
  obtain ⟨hsymbol, horigin⟩ := origin_of_mem htrace hposition
  cases horigin with
  | opened hserial hdrawn _ =>
    rw [hsame, hid, Identifier.drawn.injEq] at hdrawn
    omega
  | @restored event given hevent hcall hgiven hsymbol' _ =>
    have hput : event.call.restores id symbol = true := by
      simp [hcall, Call.restores, hgiven, hsymbol', hsame, hsymbol]
    rw [hrestores event hevent] at hput
    cases hput

/-- The supply of identifiers never goes back. -/
theorem positionsDrawn_le {start : Engine}
    (htrace : Trace (Engine.perform settings) start events engine) :
    start.positionsDrawn ≤ engine.positionsDrawn := by
  induction htrace with
  | start => exact Nat.le_refl _
  | event past done ih =>
    rw [Engine.positionsDrawn_perform done]
    exact Nat.le_add_right_of_le ih

/-- At its opening a position gets an identifier of its own. -/
theorem recordsOf_opened
    (htrace : Trace (Engine.perform settings) .empty (opening :: past) engine)
    (hopened : opening.answer = .opened (some position))
    (hrestores : ∀ event ∈ past, event.call.restores position.id position.symbol = false) :
    position.id = .drawn .positions engine.positionsDrawn ∧
      recordsOf position.id (engine.book.ofSymbol position.symbol) = [position] := by
  cases htrace with
  | event hpast hdone =>
    subst hopened
    obtain ⟨ticket, now, rfl, haccepted, hposition⟩ := Engine.of_opened hdone
    have hid := congrArg Position.id hposition
    have hsymbol : position.symbol = ticket.symbol := congrArg Position.symbol hposition
    have hdrawn := Engine.positionsDrawn_perform hdone
    rw [Call.draws, if_pos haccepted] at hdrawn
    constructor
    · rw [hid, hdrawn]
      rfl
    · rw [Engine.ofSymbol_perform hdone, Call.revise, haccepted, Bool.true_and,
        if_pos (decide_eq_true hsymbol.symm), ← hposition, recordsOf_append,
        recordsOf_eq_nil hpast hid hrestores, List.nil_append, recordsOf_self]

/-- After its opening, the only record of a position is the position as the calls since then left
it. -/
theorem recordsOf_eq_fate
    (htrace : Trace (Engine.perform settings) .empty (later ++ opening :: past) engine)
    (hopened : opening.answer = .opened (some position))
    (hrestores : ∀ event ∈ later ++ opening :: past,
      event.call.restores position.id position.symbol = false) :
    recordsOf position.id (engine.book.ofSymbol position.symbol) =
      (Call.fate settings position.symbol position (later.map Event.call)).toList := by
  induction later generalizing engine with
  | nil =>
    exact (recordsOf_opened htrace hopened fun event hevent =>
      hrestores event (List.mem_cons_of_mem opening hevent)).2
  | cons event later ih =>
    obtain ⟨hevent, hbefore⟩ := List.forall_mem_cons.mp hrestores
    cases htrace with
    | @event _ before _ _ _ hpast hdone =>
      obtain ⟨middle, hfirst, hsince⟩ := hpast.of_append
      have hdrawn := (recordsOf_opened hfirst hopened fun event hpast =>
        hbefore event (List.mem_append_right later (List.mem_cons_of_mem opening hpast))).1
      have hold : position.id ≠ .drawn .positions (before.positionsDrawn + 1) := by
        have hle := positionsDrawn_le hsince
        rw [hdrawn, Ne, Identifier.drawn.injEq]
        omega
      rw [Engine.ofSymbol_perform hdone, Call.recordsOf_revise hevent hold, ih hpast hbefore,
        List.map_cons, Call.fate]
      cases Call.fate settings position.symbol position (later.map Event.call) <;> rfl

/-- A later call returns the position exactly if it closes what the calls before it left of the
position. -/
theorem returned_eq_closing {older newer : List Event} {event : Event}
    (htrace : Trace (Engine.perform settings) .empty (newer ++ event :: older ++ opening :: past)
      engine)
    (hopened : opening.answer = .opened (some position))
    (hrestores : ∀ other ∈ newer ++ event :: older ++ opening :: past,
      other.call.restores position.id position.symbol = false) :
    event.answer.returned position.id position.symbol =
      ((Call.fate settings position.symbol position (older.map Event.call)).bind
        (event.call.closing settings position.symbol)).toList := by
  rw [List.append_assoc, List.cons_append] at htrace hrestores
  obtain ⟨hbefore, hdone, -⟩ := htrace.split
  rw [returned_perform hbefore hdone, recordsOf_eq_fate hbefore hopened fun earlier hearlier =>
    hrestores earlier (List.mem_append_right newer (List.mem_cons_of_mem event hearlier))]
  cases Call.fate settings position.symbol position (older.map Event.call) <;> rfl

end

end ExposureControl.Shadow
