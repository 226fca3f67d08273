import ExposureControl.Proofs.Movements
import ExposureControl.Proofs.PositionLife

/-!
# The count of closed trades

A price and a record of a close raise the count of a symbol's closed trades; pruning takes closed
positions off record and leaves the count alone.  So the count is that of the closed positions on
record and of those that were pruned, unless a record reopened a closed position.
-/

namespace ExposureControl.Shadow

namespace Book

theorem extract_perm (id : ObjectId) (positions : List Position) :
    ((extract id positions).1.toList ++ (extract id positions).2).Perm positions := by
  induction positions with
  | nil => exact .refl []
  | cons position rest ih =>
    unfold extract
    split
    · exact .refl _
    · exact List.perm_middle.trans (ih.cons position)

theorem nodup_ids_extract {id : ObjectId} {positions : List Position}
    (hnodup : (positions.map Position.id).Nodup) :
    ((extract id positions).2.map Position.id).Nodup := by
  have hperm := ((extract_perm id positions).map Position.id).symm.nodup hnodup
  rw [List.map_append] at hperm
  exact hperm.of_append_right

theorem id_notMem_extract {id : ObjectId} {positions : List Position}
    (hnodup : (positions.map Position.id).Nodup) :
    id ∉ (extract id positions).2.map Position.id := by
  induction positions with
  | nil => exact List.not_mem_nil
  | cons position rest ih =>
    rw [List.map_cons, List.nodup_cons] at hnodup
    unfold extract
    split
    · next hid => exact hid ▸ hnodup.1
    · next hid =>
      rw [List.map_cons, List.mem_cons, not_or]
      exact ⟨Ne.symm hid, ih hnodup.2⟩

/-- Where identifiers are distinct, the one that is taken out is closed exactly if some position of
its identifier is. -/
theorem any_closed_extract {id : ObjectId} {positions : List Position}
    (hnodup : (positions.map Position.id).Nodup) :
    ((extract id positions).1.any fun position => !position.isOpen) =
      positions.any fun position => position.id = id && !position.isOpen := by
  induction positions with
  | nil => rfl
  | cons position rest ih =>
    rw [List.map_cons, List.nodup_cons] at hnodup
    unfold extract
    split
    · next hid =>
      have hrest : (rest.any fun other => other.id = id && !other.isOpen) = false := by
        rw [List.any_eq_false]
        intro other hother hclosed
        rw [Bool.and_eq_true, decide_eq_true_eq] at hclosed
        exact hnodup.1 (hid ▸ hclosed.1 ▸ List.mem_map_of_mem hother)
      rw [List.any_cons, hrest, Option.any_some, decide_eq_true hid, Bool.true_and, Bool.or_false]
    · next hid =>
      rw [List.any_cons, decide_eq_false hid, Bool.false_and, Bool.false_or]
      exact ih hnodup.2

theorem extract_append_self {position : Position} {others : List Position}
    (hother : position.id ∉ others.map Position.id) :
    extract position.id (others ++ [position]) = (some position, others) := by
  induction others with
  | nil => exact if_pos rfl
  | cons first rest ih =>
    rw [List.map_cons, List.mem_cons, not_or] at hother
    rw [List.cons_append, extract, if_neg (Ne.symm hother.1), ih hother.2]

theorem countP_closed_map_settle (price : Float) (now : Instant) (positions : List Position) :
    (positions.map (settle price now)).countP (fun position => !position.isOpen) =
      positions.countP (fun position => !position.isOpen) +
        (positions.filter (closes price)).length := by
  induction positions with
  | nil => rfl
  | cons position rest ih =>
    rw [List.map_cons, List.countP_cons, List.countP_cons, ih]
    by_cases hcloses : closes price position = true
    · have hopen : position.isOpen = true := (Bool.and_eq_true_iff.mp hcloses).1
      rw [List.filter_cons_of_pos hcloses, List.length_cons, settle, if_pos hcloses,
        Position.isOpen_closedAtPrice, hopen]
      simp only [Bool.not_false, Bool.not_true, if_true, Bool.false_eq_true, if_false]
      omega
    · rw [List.filter_cons_of_neg hcloses, settle, if_neg hcloses]
      omega

/-- How many closed positions there are after one was put on record that reopens nothing. -/
theorem countP_closed_extract {position : Position} {positions : List Position}
    (hreopens : (position.isOpen &&
      (extract position.id positions).1.any fun replaced => !replaced.isOpen) = false) :
    ((extract position.id positions).2 ++ [position]).countP (fun other => !other.isOpen) =
      positions.countP (fun other => !other.isOpen) +
        if position.isOpen || (extract position.id positions).1.any fun replaced =>
            !replaced.isOpen then 0
        else 1 := by
  have hperm := (extract_perm position.id positions).countP_eq fun other => !other.isOpen
  rw [← hperm, List.countP_append, List.countP_append, List.countP_singleton]
  cases hfound : (extract position.id positions).1 with
  | none => cases position.isOpen <;> simp
  | some replaced =>
    rw [hfound] at hreopens
    cases hopen : position.isOpen <;> cases hbefore : replaced.isOpen <;>
      simp_all [Nat.add_comm]

theorem countP_closed_filter_outlives (cutoff : Instant) (positions : List Position) :
    positions.countP (fun position => !position.isOpen) =
      (positions.filter (outlives cutoff)).countP (fun position => !position.isOpen) +
        positions.countP fun position => !outlives cutoff position := by
  rw [List.countP_eq_countP_filter_add positions (fun position => !position.isOpen)
    (outlives cutoff)]
  congr 1
  rw [List.countP_filter]
  refine List.countP_congr fun position _ => ?_
  cases hopen : position.isOpen with
  | false => simp
  | true => simp [outlives_of_isOpen hopen]

end Book

namespace Movement

theorem countP_isClose_ofClose (profit : Float) : (ofClose profit).countP isClose = 1 := by
  unfold ofClose of?
  split <;> rfl

theorem countP_isClose_of? (track : Drift.Track) (amount : Float) :
    (of? track amount).toList.countP isClose = 0 := by
  unfold of?
  split <;> rfl

theorem countP_isClose_only (booked symbol : String) {movements : List Movement}
    (hnone : movements.countP isClose = 0) : (only booked movements symbol).countP isClose = 0 := by
  unfold only
  split
  · exact hnone
  · rfl

/-- Every position that a price closes is one close. -/
theorem countP_isClose_closes (price : Float) (positions : List Position) :
    (positions.flatMap fun position => ofClose (position.profitAt price)).countP isClose =
      positions.length := by
  induction positions with
  | nil => rfl
  | cons position rest ih =>
    rw [List.flatMap_cons, List.countP_append, ih, countP_isClose_ofClose, List.length_cons]
    omega

end Movement

/-! ## What a call does to closed positions -/

namespace Call

variable {settings : Settings.Shadow} {symbol : String}

/-- Whether a call puts an open position in the place of a closed one. -/
def reopens (book : Book) : Call → Bool
  | .restore position =>
    position.isOpen && (book.restore position).2.any fun replaced => !replaced.isOpen
  | _ => false

/-- A call that reopens nothing adds as many closes to the totals as it adds closed positions to the
record, not counting those that it discards. -/
theorem countP_closed_revise (call : Call) (book : Book) (drawn : Nat) (symbol : String)
    (hreopens : call.reopens book = false) :
    (book.ofSymbol symbol).countP (fun position => !position.isOpen) +
        (call.movements settings symbol (book.ofSymbol symbol)).countP Movement.isClose =
      (call.revise settings drawn symbol (book.ofSymbol symbol)).countP
          (fun position => !position.isOpen) +
        (book.ofSymbol symbol).countP (call.discards settings) := by
  have hkeeps : ∀ keeping : Call, (∀ position, keeping.discards settings position = false) →
      (book.ofSymbol symbol).countP (keeping.discards settings) = 0 := fun keeping hkeeping =>
    List.countP_eq_zero.mpr fun position _ => by simp [hkeeping position]
  cases call with
  | register ticket now =>
    rw [hkeeps _ fun _ => rfl]
    dsimp only [revise, movements]
    split
    · rw [List.countP_append, List.countP_singleton, Position.isOpen_create]
      rfl
    · rfl
  | tick ticked price now =>
    rw [hkeeps _ fun _ => rfl]
    dsimp only [revise, movements]
    cases settings.enabled && price.isFinite with
    | false => rfl
    | true =>
      by_cases hticked : ticked = symbol
      · subst hticked
        rw [Movement.only_self]
        simp only [decide_true, Bool.and_self, if_true]
        rw [Movement.countP_isClose_closes, Book.countP_closed_map_settle]
        rfl
      · rw [Movement.only_of_ne (Ne.symm hticked)]
        simp [hticked]
  | restore position =>
    rw [hkeeps _ fun _ => rfl]
    dsimp only [revise, movements]
    by_cases hsymbol : position.symbol = symbol
    · subst hsymbol
      rw [if_pos rfl, Movement.only_self, Book.countP_closed_extract hreopens]
      split <;> rfl
    · rw [if_neg hsymbol, Movement.only_of_ne (Ne.symm hsymbol), ite_self]
      rfl
  | bookLive booked result | bookShadow booked result =>
    rw [hkeeps _ fun _ => rfl]
    dsimp only [revise, movements]
    rw [Movement.countP_isClose_only _ _ (Movement.countP_isClose_of? _ _)]
  | prune now =>
    dsimp only [revise, movements]
    cases hcutoff : cutoff settings now with
    | error fault => rw [hkeeps _ fun position => by rw [discards, hcutoff]]; rfl
    | ok limit =>
      rw [Book.countP_closed_filter_outlives limit, List.countP_nil, Nat.add_zero]
      congr 1
      exact List.countP_congr fun position _ => by rw [discards, hcutoff]

theorem nodup_ids_revise {call : Call} {drawn : Nat} {positions : List Position}
    (hnodup : (positions.map Position.id).Nodup)
    (hnew : .drawn .positions (drawn + 1) ∉ positions.map Position.id) :
    ((call.revise settings drawn symbol positions).map Position.id).Nodup := by
  cases call with
  | register ticket now =>
    dsimp only [revise]
    split
    · rw [List.map_append, List.map_singleton, ← List.concat_eq_append]
      exact hnodup.concat hnew
    · exact hnodup
  | tick ticked price now =>
    dsimp only [revise]
    split
    · rw [List.map_map]
      have hids : Position.id ∘ Book.settle price now = Position.id := funext Book.id_settle
      rwa [hids]
    · exact hnodup
  | restore position =>
    dsimp only [revise]
    split
    · rw [List.map_append, List.map_singleton, ← List.concat_eq_append]
      exact (Book.nodup_ids_extract hnodup).concat (Book.id_notMem_extract hnodup)
    · exact hnodup
  | prune now =>
    dsimp only [revise]
    split
    · exact hnodup.sublist (List.filter_sublist.map Position.id)
    · exact hnodup
  | bookLive _ _ | bookShadow _ _ => exact hnodup

end Call

/-! ## What a run does to closed positions -/

/-- Whether a call put an open position in the place of a closed one. -/
def Event.reopens (event : Event) : Bool := event.call.reopens event.before.book

/-- Whether an identifier is still to be drawn where `drawn` positions were opened so far. -/
def isUndrawn (drawn : Nat) : ObjectId → Bool
  | .drawn .positions serial => drawn < serial
  | _ => false

/-- Whether a call put a position on record under an identifier that was still to be drawn. -/
def Event.foresees (event : Event) : Bool :=
  match event.call with
  | .restore position => isUndrawn event.before.positionsDrawn position.id
  | _ => false

/-- How many positions of a symbol were taken off record by pruning along events. -/
def prunedCount (settings : Settings.Shadow) (symbol : String) : List Event → Nat
  | [] => 0
  | event :: past =>
    prunedCount settings symbol past +
      (event.before.book.ofSymbol symbol).countP (event.call.discards settings)

section

variable {settings : Settings.Shadow} {events : List Event} {engine : Engine}

theorem closedTrades_eq (htrace : Trace (Engine.perform settings) .empty events engine)
    (hreopens : ∀ event ∈ events, event.reopens = false) (symbol : String) :
    (engine.totalsOf symbol).closedTrades =
      engine.book.closedCount symbol + prunedCount settings symbol events := by
  induction htrace with
  | start => rfl
  | @event events before next call answer past done ih =>
    obtain ⟨hevent, hpast⟩ := List.forall_mem_cons.mp hreopens
    have hrevised := @call.countP_closed_revise settings before.book before.positionsDrawn symbol
      hevent
    have hcounted := ih hpast
    rw [Book.closedCount] at hcounted ⊢
    rw [(Engine.moved_perform done).totals, Totals.closedTrades_moves, hcounted,
      Engine.ofSymbol_perform done, prunedCount]
    dsimp only
    omega

/-- A drawn identifier on record was drawn by then, unless one was foreseen. -/
theorem serial_le_of_mem (htrace : Trace (Engine.perform settings) .empty events engine)
    (hforesees : ∀ event ∈ events, event.foresees = false) {symbol : String} {position : Position}
    (hposition : position ∈ engine.book.ofSymbol symbol) {serial : Nat}
    (hid : position.id = .drawn .positions serial) : serial ≤ engine.positionsDrawn := by
  obtain ⟨-, horigin⟩ := origin_of_mem htrace hposition
  cases horigin with
  | opened hserial hdrawn _ =>
    rw [hid, Identifier.drawn.injEq] at hdrawn
    exact hdrawn.2 ▸ hserial
  | @restored event given hevent hcall hgiven _ _ =>
    have hforeseen := hforesees event hevent
    obtain ⟨newer, older, rfl⟩ := List.append_of_mem hevent
    obtain ⟨-, hdone, hlater⟩ := htrace.split
    have hbefore := positionsDrawn_le hlater
    rw [Engine.positionsDrawn_perform hdone] at hbefore
    simp only [Event.foresees, hcall, hgiven, hid, isUndrawn, decide_eq_false_iff_not] at hforeseen
    omega

/-- The positions of a symbol have distinct identifiers, unless one was foreseen. -/
theorem nodup_ids (htrace : Trace (Engine.perform settings) .empty events engine)
    (hforesees : ∀ event ∈ events, event.foresees = false) (symbol : String) :
    ((engine.book.ofSymbol symbol).map Position.id).Nodup := by
  induction htrace with
  | start => exact List.nodup_nil
  | event past done ih =>
    obtain ⟨-, hpast⟩ := List.forall_mem_cons.mp hforesees
    rw [Engine.ofSymbol_perform done]
    refine Call.nodup_ids_revise (ih hpast) fun hnew => ?_
    obtain ⟨position, hposition, hid⟩ := List.mem_map.mp hnew
    have hserial := serial_le_of_mem past hpast hposition hid
    omega

end

/-! ## Putting the same position on record again -/

theorem Book.restore_restore {book : Book} {position : Position}
    (hnodup : ((book.ofSymbol position.symbol).map Position.id).Nodup) :
    (book.restore position).1.restore position = ((book.restore position).1, some position) := by
  have hextract : extract position.id ((book.restore position).1.ofSymbol position.symbol) =
      (some position, (extract position.id (book.ofSymbol position.symbol)).2) := by
    rw [ofSymbol_restore, if_pos rfl]
    exact extract_append_self (id_notMem_extract hnodup)
  have hsame : (book.restore position).1.positions.insert position.symbol
      ((extract position.id (book.ofSymbol position.symbol)).2 ++ [position]) =
      (book.restore position).1.positions :=
    Table.insert_of_find?_eq_some (Table.find?_insert_self _ _ _)
  rw [restore, hextract]
  dsimp only
  rw [hsame]

theorem Engine.restore_restore {engine : Engine} {position : Position}
    (hnodup : ((engine.book.ofSymbol position.symbol).map Position.id).Nodup) :
    (engine.restore position).restore position = engine.restore position := by
  have hbook := (restore_eq position engine).1
  generalize engine.restore position = restored at hbook
  have hagain : restored.book.restore position = (restored.book, some position) := by
    rw [hbook]
    exact Book.restore_restore hnodup
  rw [restore, hagain]
  dsimp only
  rw [Option.any_some, Bool.or_not_self, if_pos rfl]

/-! ## The count of closed trades -/

/-- What an engine knows of the closes that it counted along events. -/
structure ClosesKept (settings : Settings.Shadow) (events : List Event) (engine : Engine) :
    Prop where
  /-- A close that was counted is on record, or it was pruned. -/
  counted : ∀ symbol, (engine.totalsOf symbol).closedTrades =
    engine.book.closedCount symbol + prunedCount settings symbol events
  /-- Pruning takes off record what is counted as pruned, and leaves all totals, so that a symbol
  that may raise alerts still may. -/
  pruning : ∀ {now : Instant} {next : Engine} {answer : Answer},
    engine.perform settings (.prune now) = .ok (next, answer) →
    ∀ symbol, next.totalsOf symbol = engine.totalsOf symbol ∧
      next.book.ofSymbol symbol = (engine.book.ofSymbol symbol).filter fun position =>
        !(Call.prune now).discards settings position
  /-- A close that is put on record twice in a row is counted once, and not at all if it was on
  record before. -/
  restoring : (∀ event ∈ events, event.foresees = false) →
    ∀ position : Position, position.isOpen = false → ∀ symbol,
      (((engine.restore position).restore position).totalsOf symbol).closedTrades =
        (engine.totalsOf symbol).closedTrades +
          if symbol = position.symbol && !(engine.book.ofSymbol symbol).any fun other =>
              other.id = position.id && !other.isOpen then 1
          else 0

/-- As long as no open position is put on record in the place of a closed one, the count of closed
trades is that of the closed positions on record and of the pruned ones. -/
theorem closes_kept {settings : Settings.Shadow} {events : List Event} {engine : Engine}
    (htrace : Trace (Engine.perform settings) .empty events engine)
    (hreopens : ∀ event ∈ events, event.reopens = false) : ClosesKept settings events engine where
  counted := closedTrades_eq htrace hreopens
  pruning hperform symbol := by
    constructor
    · rw [(Engine.moved_perform hperform).totals]
      rfl
    · rw [Engine.ofSymbol_perform hperform]
      dsimp only [Call.revise, Call.discards]
      cases cutoff settings _ with
      | error fault => exact (List.filter_true _).symm
      | ok limit => simp only [Bool.not_not]
  restoring hforesees position hclosed symbol := by
    have hnodup := nodup_ids htrace hforesees position.symbol
    rw [Engine.restore_restore hnodup, (Engine.moved_restore settings position engine).totals,
      Totals.closedTrades_moves, Call.movements]
    by_cases hsymbol : symbol = position.symbol
    · subst hsymbol
      rw [hclosed, Bool.false_or, Book.any_closed_extract hnodup, decide_eq_true rfl,
        Bool.true_and]
      cases (engine.book.ofSymbol position.symbol).any fun other =>
        other.id = position.id && !other.isOpen with
      | false => rw [Movement.only_self]; rfl
      | true => rfl
    · rw [Movement.only_of_ne hsymbol, ite_self, decide_eq_false hsymbol, Bool.false_and]
      rfl

/-- A position of a purchase that was closed elsewhere. -/
def closedElsewhere (number : Nat) (closedAt : Instant) : Position :=
  (Position.create (.given ⟨number⟩) purchase ⟨0⟩).closedAtPrice 120.0 closedAt

/-- One price closes two positions, one of which was put on record, and pruning discards both.  A
record of a close takes the place of an open position, then of itself.  The close that comes back
after it was pruned counts again. -/
theorem closes_kept_of_records :
    ∃ events engine,
      Trace (Engine.perform { closedRetentionDays := 0 }) .empty events engine ∧
      (∀ event ∈ events, Event.reopens event = false) ∧
      (engine.totalsOf "BTC").closedTrades = 5 ∧ engine.book.closedCount "BTC" = 3 ∧
      prunedCount { closedRetentionDays := 0 } "BTC" events = 2 ∧
      ClosesKept { closedRetentionDays := 0 } events engine := by
  let opened (number : Nat) : Position := .create (.given ⟨number⟩) purchase ⟨0⟩
  let calls : List Call :=
    [.register purchase ⟨0⟩, .restore (opened 7), .tick "BTC" 111.0 ⟨1⟩, .restore (opened 8),
      .restore (closedElsewhere 8 ⟨5⟩), .restore (closedElsewhere 8 ⟨6⟩), .prune ⟨3⟩,
      .restore (closedElsewhere 7 ⟨4⟩), .restore (closedElsewhere 9 ⟨4⟩)]
  have hreplays : Trace.replays (Engine.perform { closedRetentionDays := 0 }) .empty calls
      (fun events engine =>
        events.all (fun event => !Event.reopens event) &&
        (engine.totalsOf "BTC").closedTrades == 5 && engine.book.closedCount "BTC" == 3 &&
        prunedCount { closedRetentionDays := 0 } "BTC" events == 2) = true := by
    decide +kernel
  obtain ⟨events, engine, htrace, -, hcheck⟩ := Trace.exists_of_replays hreplays
  simp only [Bool.and_eq_true, List.all_eq_true, beq_iff_eq, Bool.not_eq_true'] at hcheck
  obtain ⟨⟨⟨hreopens, hcount⟩, hclosed⟩, hpruned⟩ := hcheck
  exact ⟨events, engine, htrace, hreopens, hcount, hclosed, hpruned, closes_kept htrace hreopens⟩

end ExposureControl.Shadow
