import ExposureControl.Proofs.DivergenceAlerts
import ExposureControl.Proofs.PositionLife

/-!
# Pruning is not felt

Pruning takes closed positions off record, and nothing that the engine does later depends on those.
So two runs of the same calls, pruned at different points and up to different times, answer every
other call in the same way: they close the same positions with the same results, come to the same
totals, and raise the same alerts.
-/

namespace ExposureControl.Shadow

def Call.isPrune : Call → Bool
  | .prune _ => true
  | _ => false

def Call.isRestore : Call → Bool
  | .restore _ => true
  | _ => false

/-- The results of shadow trades that an answer hands on to the drift monitor, in their order. -/
def Answer.results : Answer → List Float
  | .closed _ fills => fills.map BookedFill.result
  | .bookedShadow fill => fill.toList.map BookedFill.result
  | _ => []

/-- The results that events handed on, oldest first. -/
def resultsOf : List Event → List Float
  | [] => []
  | event :: past => resultsOf past ++ event.answer.results

/-! ## Engines that differ in closed positions only -/

/-- Two engines that differ in nothing but the closed positions on record. -/
structure Alike (engine other : Engine) : Prop where
  totals : other.totals = engine.totals
  alerts : other.alerts = engine.alerts
  positionsDrawn : other.positionsDrawn = engine.positionsDrawn
  opened : ∀ symbol, (other.book.ofSymbol symbol).filter Position.isOpen =
    (engine.book.ofSymbol symbol).filter Position.isOpen

namespace Book

variable {price : Float} {now : Instant}

theorem filter_closes_filter_isOpen (price : Float) (positions : List Position) :
    (positions.filter Position.isOpen).filter (closes price) = positions.filter (closes price) := by
  rw [List.filter_filter]
  refine List.filter_congr fun position _ => ?_
  cases hopen : position.isOpen <;> simp [closes, hopen]

theorem filter_isOpen_map_settle (positions : List Position) :
    (positions.map (settle price now)).filter Position.isOpen =
      ((positions.filter Position.isOpen).map (settle price now)).filter Position.isOpen := by
  induction positions with
  | nil => rfl
  | cons position rest ih =>
    cases hopen : position.isOpen with
    | true => rw [List.filter_cons_of_pos hopen, List.map_cons, List.map_cons, List.filter_cons,
        List.filter_cons, ih]
    | false =>
      have hsettled : settle price now position = position := by
        rw [settle, closes, hopen, Bool.false_and, if_neg Bool.false_ne_true]
      have hclosed : ¬ position.isOpen = true := by rw [hopen]; exact Bool.false_ne_true
      rw [List.filter_cons_of_neg hclosed, List.map_cons, hsettled,
        List.filter_cons_of_neg hclosed, ih]

end Book

/-- The open positions after a call come from those before it. -/
theorem Call.filter_isOpen_revise {settings : Settings.Shadow} {call : Call}
    (hrestore : call.isRestore = false) (drawn : Nat) (symbol : String)
    (positions : List Position) :
    (call.revise settings drawn symbol positions).filter Position.isOpen =
      (call.revise settings drawn symbol (positions.filter Position.isOpen)).filter
        Position.isOpen := by
  have hidem : (positions.filter Position.isOpen).filter Position.isOpen =
      positions.filter Position.isOpen := by rw [List.filter_filter]; simp
  cases call with
  | register ticket now =>
    dsimp only [revise]
    split
    · rw [List.filter_append, List.filter_append, hidem]
    · exact hidem.symm
  | tick ticked price now =>
    dsimp only [revise]
    split
    · exact Book.filter_isOpen_map_settle positions
    · exact hidem.symm
  | restore position => cases hrestore
  | prune now => rw [filter_isOpen_prune, filter_isOpen_prune, hidem]
  | bookLive _ _ | bookShadow _ _ => exact hidem.symm

namespace Engine

variable {settings : Settings.Shadow} {engine other next : Engine} {symbol : String}

def withBook (book : Book) (engine : Engine) : Engine := { engine with book }

/-! The book has no part in bookings. -/

theorem checkDivergence_withBook (book : Book) (engine : Engine) :
    (engine.withBook book).checkDivergence settings symbol =
      ((engine.checkDivergence settings symbol).1.withBook book,
        (engine.checkDivergence settings symbol).2) := by
  have htotals : (engine.withBook book).totalsOf symbol = engine.totalsOf symbol := rfl
  dsimp only [checkDivergence]
  rw [htotals]
  cases settings.enabled && (engine.totalsOf symbol).diverges settings <;> rfl

theorem changeTotals_withBook (change : Totals → Totals) (book : Book) (engine : Engine) :
    (engine.withBook book).changeTotals symbol change =
      (engine.changeTotals symbol change).withBook book := rfl

theorem bookLive_withBook (result : Float) (book : Book) (engine : Engine) :
    (engine.withBook book).bookLive settings symbol result =
      ((engine.bookLive settings symbol result).1.withBook book,
        (engine.bookLive settings symbol result).2) := by
  unfold bookLive
  by_cases hfinite : result.isFinite = true
  · rw [if_pos hfinite, if_pos hfinite, changeTotals_withBook, checkDivergence_withBook]
  · rw [if_neg hfinite, if_neg hfinite]

theorem bookShadow_withBook (result : Float) (book : Book) (engine : Engine) :
    (engine.withBook book).bookShadow settings symbol result =
      ((engine.bookShadow settings symbol result).1.withBook book,
        (engine.bookShadow settings symbol result).2) := by
  unfold bookShadow
  by_cases hfinite : result.isFinite = true
  · rw [if_pos hfinite, if_pos hfinite, changeTotals_withBook, checkDivergence_withBook]
  · rw [if_neg hfinite, if_neg hfinite]

theorem bookClose_withBook (result : Float) (book : Book) (engine : Engine) :
    (engine.withBook book).bookClose settings symbol result =
      ((engine.bookClose settings symbol result).1.withBook book,
        (engine.bookClose settings symbol result).2) := by
  rw [bookClose, changeTotals_withBook, bookShadow_withBook, bookClose]

theorem bookCloses_withBook (positions : List Position) (book : Book) (engine : Engine) :
    bookCloses settings symbol positions (engine.withBook book) =
      ((bookCloses settings symbol positions engine).1.withBook book,
        (bookCloses settings symbol positions engine).2) := by
  induction positions generalizing engine with
  | nil => rfl
  | cons position rest ih =>
    dsimp only [bookCloses]
    rw [bookClose_withBook]
    dsimp only
    rw [ih]

/-- A price is answered alike where a book holds the same open positions of its symbol. -/
theorem exists_priceTick_withBook {price : Float} {now : Instant} {closed : List Position}
    {fills : List BookedFill} {book : Book}
    (hopened : (book.ofSymbol symbol).filter Position.isOpen =
      (engine.book.ofSymbol symbol).filter Position.isOpen)
    (htick : engine.priceTick settings symbol price now = .ok (next, closed, fills)) :
    ∃ after, (engine.withBook book).priceTick settings symbol price now =
      .ok (next.withBook after, closed, fills) := by
  unfold priceTick at htick ⊢
  by_cases hacted : (settings.enabled && price.isFinite) = true
  · rw [if_pos hacted] at htick ⊢
    simp only [Fault.bind_eq_ok_iff, Fault.pure_eq_ok_iff, Prod.mk.injEq, Prod.exists] at htick
    obtain ⟨settled, positions, htrigger, hnext, rfl, rfl⟩ := htick
    have hcloses : (book.ofSymbol symbol).filter (Book.closes price) =
        (engine.book.ofSymbol symbol).filter (Book.closes price) := by
      rw [← Book.filter_closes_filter_isOpen, hopened, Book.filter_closes_filter_isOpen]
    -- the prices that are acted on are the same, because the positions that they close are
    have hcountable := (@Book.exists_trigger_iff symbol price now engine.book).mp ⟨_, htrigger⟩
    obtain ⟨⟨after, others⟩, hother⟩ := (@Book.exists_trigger_iff symbol price now book).mpr
      fun position hposition hclosing => by
        have hmember := List.mem_filter.mpr ⟨hposition, hclosing⟩
        rw [hcloses] at hmember
        exact hcountable position (List.mem_filter.mp hmember).1 hclosing
    have hclosed : others = positions := by
      rw [(Book.of_trigger hother).2, (Book.of_trigger htrigger).2, hcloses]
    subst hclosed
    refine ⟨after, Fault.bind_eq_ok_iff.mpr ⟨(after, others), hother, ?_⟩⟩
    have hbooked : bookCloses settings symbol others { engine.withBook book with book := after } =
        (next.withBook after,
          (bookCloses settings symbol others { engine with book := settled }).2) := by
      rw [← hnext]
      exact bookCloses_withBook others after { engine with book := settled }
    dsimp only
    rw [hbooked]
    rfl
  · rw [if_neg hacted] at htick ⊢
    simp only [Except.ok.injEq, Prod.mk.injEq] at htick
    obtain ⟨rfl, rfl, rfl⟩ := htick
    exact ⟨book, rfl⟩

/-- Any call but pruning and putting a position on record is answered alike where a book holds the
same open positions. -/
theorem exists_perform_withBook {call : Call} {answer : Answer} {book : Book}
    (hopened : ∀ symbol, (book.ofSymbol symbol).filter Position.isOpen =
      (engine.book.ofSymbol symbol).filter Position.isOpen)
    (hprune : call.isPrune = false) (hrestore : call.isRestore = false)
    (hperform : engine.perform settings call = .ok (next, answer)) :
    ∃ after, (engine.withBook book).perform settings call = .ok (next.withBook after, answer) := by
  cases performed_iff.mp hperform with
  | register ticket now =>
    refine ⟨((engine.withBook book).register settings ticket now).1.book, ?_⟩
    rw [perform, register, register]
    cases settings.enabled && acceptable ticket <;> rfl
  | tick htick =>
    obtain ⟨after, hother⟩ := exists_priceTick_withBook (hopened _) htick
    exact ⟨after, performed_iff.mpr (.tick hother)⟩
  | restore => cases hrestore
  | bookLive symbol result => exact ⟨book, by rw [perform, bookLive_withBook]⟩
  | bookShadow symbol result => exact ⟨book, by rw [perform, bookShadow_withBook]⟩
  | prune => cases hprune

end Engine

section

variable {settings : Settings.Shadow} {engine middle other next : Engine}

namespace Alike

theorem refl (engine : Engine) : Alike engine engine := ⟨rfl, rfl, rfl, fun _ => rfl⟩

theorem symm (halike : Alike engine other) : Alike other engine :=
  ⟨halike.totals.symm, halike.alerts.symm, halike.positionsDrawn.symm,
    fun symbol => (halike.opened symbol).symm⟩

theorem trans (hfirst : Alike engine middle) (hsecond : Alike middle other) : Alike engine other :=
  ⟨hsecond.totals.trans hfirst.totals, hsecond.alerts.trans hfirst.alerts,
    hsecond.positionsDrawn.trans hfirst.positionsDrawn,
    fun symbol => (hsecond.opened symbol).trans (hfirst.opened symbol)⟩

theorem of_prune {now : Instant} {answer : Answer}
    (hperform : engine.perform settings (.prune now) = .ok (next, answer)) :
    Alike engine next ∧ ∃ count, answer = .pruned count := by
  have hopened : ∀ symbol, (next.book.ofSymbol symbol).filter Position.isOpen =
      (engine.book.ofSymbol symbol).filter Position.isOpen := by
    intro symbol
    rw [Engine.ofSymbol_perform hperform, Call.filter_isOpen_prune]
  cases Engine.performed_iff.mp hperform with
  | prune => exact ⟨⟨rfl, rfl, rfl, hopened⟩, _, rfl⟩

theorem exists_perform {call : Call} {answer : Answer} (halike : Alike engine other)
    (hprune : call.isPrune = false) (hrestore : call.isRestore = false)
    (hperform : engine.perform settings call = .ok (next, answer)) :
    ∃ after, other.perform settings call = .ok (after, answer) ∧ Alike next after := by
  have hother : other = engine.withBook other.book := by
    obtain ⟨_, _, _, _⟩ := other
    obtain ⟨rfl, rfl, rfl, -⟩ := halike
    rfl
  obtain ⟨book, hdone⟩ :=
    Engine.exists_perform_withBook halike.opened hprune hrestore hperform
  rw [← hother] at hdone
  refine ⟨next.withBook book, hdone, rfl, rfl, rfl, fun symbol => ?_⟩
  rw [Engine.ofSymbol_perform hdone, Engine.ofSymbol_perform hperform,
    Call.filter_isOpen_revise hrestore, halike.opened, halike.positionsDrawn,
    ← Call.filter_isOpen_revise hrestore]

end Alike

/-! ## Runs that differ in pruning only -/

/-- Two events that are the same call with the same answer, between engines that are alike. -/
structure SameTurn (event other : Event) : Prop where
  call : other.call = event.call
  answer : other.answer = event.answer
  before : Alike event.before other.before
  after : Alike event.after other.after

/-- Two runs that agree on everything but pruning and the closed positions on record. -/
structure RunsAgree (events : List Event) (engine : Engine) (others : List Event)
    (other : Engine) : Prop where
  /-- Every other call is answered alike: the same positions are opened and closed, with the same
  results, and the same alerts are raised. -/
  turns : List.Forall₂ SameTurn (events.filter fun event => !event.call.isPrune)
    (others.filter fun event => !event.call.isPrune)
  last : Alike engine other
  /-- The same alerts are published in the same order. -/
  published : ∀ notifier, publishAll notifier others = publishAll notifier events
  /-- The same results are handed on to the drift monitor in the same order. -/
  results : resultsOf others = resultsOf events

namespace RunsAgree

variable {events others : List Event}

theorem start (engine : Engine) : RunsAgree [] engine [] engine :=
  ⟨.nil, .refl engine, fun _ => rfl, rfl⟩

theorem symm (hagree : RunsAgree events engine others other) :
    RunsAgree others other events engine where
  turns := hagree.turns.flip.imp fun _ _ hsame =>
    ⟨hsame.call.symm, hsame.answer.symm, hsame.before.symm, hsame.after.symm⟩
  last := hagree.last.symm
  published notifier := (hagree.published notifier).symm
  results := hagree.results.symm

/-- One more pruning of the second run is not felt. -/
theorem prune {now : Instant} {answer : Answer} (hagree : RunsAgree events engine others other)
    (hperform : other.perform settings (.prune now) = .ok (next, answer)) :
    RunsAgree events engine (⟨other, .prune now, answer, next⟩ :: others) next := by
  obtain ⟨halike, count, rfl⟩ := Alike.of_prune hperform
  refine ⟨hagree.turns, hagree.last.trans halike, hagree.published, ?_⟩
  rw [resultsOf, hagree.results]
  exact List.append_nil _

/-- One more call is answered alike. -/
theorem call {call : Call} {answer : Answer} {after : Engine}
    (hagree : RunsAgree events engine others other) (hprune : call.isPrune = false)
    (halike : Alike next after) :
    RunsAgree (⟨engine, call, answer, next⟩ :: events) next
      (⟨other, call, answer, after⟩ :: others) after := by
  refine ⟨?_, halike, fun notifier => ?_, ?_⟩
  · rw [List.filter_cons_of_pos (by simp [hprune]), List.filter_cons_of_pos (by simp [hprune])]
    exact .cons ⟨rfl, rfl, hagree.last, halike⟩ hagree.turns
  · rw [publishAll, publishAll, hagree.published]
  · rw [resultsOf, resultsOf, hagree.results]

/-- Prunings up to times that can be represented are answered, and not felt. -/
theorem exists_prunes {prunings : List Call}
    (htrace : Trace (Engine.perform settings) .empty others other)
    (hagree : RunsAgree events engine others other)
    (hprunings : ∀ call ∈ prunings, call.isPrune = true)
    (hcutoffs : ∀ now, .prune now ∈ prunings → ∃ time, cutoff settings now = .ok time) :
    ∃ more after, Trace (Engine.perform settings) .empty more after ∧
      more.map Event.call = prunings ++ others.map Event.call ∧
      RunsAgree events engine more after := by
  induction prunings with
  | nil => exact ⟨others, other, htrace, rfl, hagree⟩
  | cons call rest ih =>
    obtain ⟨hcall, hrest⟩ := List.forall_mem_cons.mp hprunings
    obtain ⟨more, after, hmore, hcalls, hafter⟩ :=
      ih hrest fun now hnow => hcutoffs now (List.mem_cons_of_mem call hnow)
    cases call with
    | prune now =>
      obtain ⟨time, htime⟩ := hcutoffs now List.mem_cons_self
      have hperform := (@Engine.performed_iff settings after _ _ _).mpr (.prune htime)
      exact ⟨_, _, hmore.event hperform, by rw [List.map_cons, hcalls]; rfl,
        hafter.prune hperform⟩
    | register | tick | restore | bookLive | bookShadow => cases hcall

end RunsAgree

/-- A run that restores no record is matched by a run of the same calls that is pruned elsewhere. -/
theorem RunsAgree.exists_run {events : List Event} {calls : List Call}
    (htrace : Trace (Engine.perform settings) .empty events engine)
    (hrestores : ∀ event ∈ events, event.call.isRestore = false)
    (hsame : (calls.filter fun call => !call.isPrune) =
      (events.map Event.call).filter fun call => !call.isPrune)
    (hcutoffs : ∀ now, .prune now ∈ calls → ∃ time, cutoff settings now = .ok time) :
    ∃ others other, Trace (Engine.perform settings) .empty others other ∧
      others.map Event.call = calls ∧ RunsAgree events engine others other := by
  induction htrace generalizing calls with
  | start =>
    have hprunings : ∀ call ∈ calls, call.isPrune = true := by
      simpa [List.filter_eq_nil_iff] using hsame
    obtain ⟨others, other, hother, hcalls, hagree⟩ :=
      RunsAgree.exists_prunes .start (.start .empty) hprunings hcutoffs
    exact ⟨others, other, hother, by rw [hcalls, List.map_nil, List.append_nil], hagree⟩
  | @event events before next call answer past done ih =>
    obtain ⟨hevent, hpast⟩ := List.forall_mem_cons.mp hrestores
    cases hprune : call.isPrune with
    | true =>
      rw [List.map_cons, List.filter_cons_of_neg (by simp [hprune])] at hsame
      obtain ⟨others, other, hother, hcalls, hagree⟩ := ih hpast hsame hcutoffs
      cases call with
      | prune now => exact ⟨others, other, hother, hcalls, (hagree.symm.prune done).symm⟩
      | register | tick | restore | bookLive | bookShadow => cases hprune
    | false =>
      rw [List.map_cons, List.filter_cons_of_pos (by simp [hprune])] at hsame
      obtain ⟨prunings, earlier, rfl, hprunings, -, hearlier⟩ := List.filter_eq_cons_iff.mp hsame
      obtain ⟨others, other, hother, hcalls, hagree⟩ := ih hpast hearlier fun now hnow =>
        hcutoffs now (List.mem_append_right prunings (List.mem_cons_of_mem call hnow))
      obtain ⟨after, hdone, halike⟩ := hagree.last.exists_perform hprune hevent done
      obtain ⟨more, final, hmore, hall, hfinal⟩ :=
        RunsAgree.exists_prunes (hother.event hdone) (hagree.call hprune halike)
          (by simpa using hprunings)
          fun now hnow => hcutoffs now (List.mem_append_left _ hnow)
      exact ⟨more, final, hmore, by rw [hall, List.map_cons, hcalls], hfinal⟩

/-- Of a run that restores no record, the same calls may be pruned elsewhere: wherever the cutoffs
can be represented, they are answered as well, and both runs agree. -/
theorem runs_agree {events : List Event} {calls : List Call}
    (htrace : Trace (Engine.perform settings) .empty events engine)
    (hrestores : ∀ event ∈ events, event.call.isRestore = false)
    (hsame : (calls.filter fun call => !call.isPrune) =
      (events.map Event.call).filter fun call => !call.isPrune)
    (hcutoffs : ∀ now, .prune now ∈ calls → ∃ time, cutoff settings now = .ok time) :
    (∃ others other, Trace (Engine.perform settings) .empty others other ∧
      others.map Event.call = calls) ∧
    ∀ others other, Trace (Engine.perform settings) .empty others other →
      others.map Event.call = calls → RunsAgree events engine others other := by
  obtain ⟨others, other, hother, hcalls, hagree⟩ :=
    RunsAgree.exists_run htrace hrestores hsame hcutoffs
  refine ⟨⟨others, other, hother, hcalls⟩, fun more final hmore hmoreCalls => ?_⟩
  obtain ⟨rfl, rfl⟩ := hother.unique hmore (hmoreCalls.trans hcalls.symm)
  exact hagree

end

/-- A run that is pruned between two closes, so that it forgets the first one, is matched by the run
that is pruned before its first call and after its last one. -/
theorem runs_agree_of_closes :
    ∃ events engine others other,
      Trace (Engine.perform { closedRetentionDays := 0 }) .empty events engine ∧
      engine.book.closedCount "BTC" = 1 ∧ (engine.totalsOf "BTC").closedTrades = 2 ∧
      Trace (Engine.perform { closedRetentionDays := 0 }) .empty others other ∧
      (events.map Event.call).map Call.isPrune = [false, false, false, true, false, false] ∧
      (others.map Event.call).map Call.isPrune =
        [true, false, false, false, false, false, true] ∧
      RunsAgree events engine others other := by
  let early : List Call := [.tick "BTC" 111.0 ⟨2⟩, .register purchase ⟨1⟩]
  let late : List Call :=
    [.bookLive "BTC" 1.0, .tick "BTC" 94.0 ⟨5⟩, .register purchase ⟨4⟩]
  let calls : List Call := .prune ⟨9⟩ :: late ++ early ++ [.prune ⟨0⟩]
  have hreplays : Trace.replays (Engine.perform { closedRetentionDays := 0 }) .empty
      (late ++ .prune ⟨3⟩ :: early).reverse (fun _ engine =>
        engine.book.closedCount "BTC" == 1 && (engine.totalsOf "BTC").closedTrades == 2) =
      true := by
    decide +kernel
  obtain ⟨events, engine, htrace, hcalls, hcheck⟩ := Trace.exists_of_replays hreplays
  rw [List.reverse_inj] at hcalls
  simp only [Bool.and_eq_true, beq_iff_eq] at hcheck
  have hrestores : ∀ event ∈ events, event.call.isRestore = false := by
    have hcall : ∀ call ∈ events.map Event.call, call.isRestore = false := by
      rw [hcalls]
      decide
    exact List.forall_mem_map.mp hcall
  have hsame : (calls.filter fun call => !call.isPrune) =
      (events.map Event.call).filter fun call => !call.isPrune := by
    rw [hcalls]
    rfl
  have hcutoffs : ∀ now, .prune now ∈ calls →
      ∃ time, cutoff { closedRetentionDays := 0 } now = .ok time := by
    intro now hnow
    have hnow : now = ⟨9⟩ ∨ now = ⟨0⟩ := by simpa [calls, early, late] using hnow
    obtain rfl | rfl := hnow
    · exact ⟨⟨9⟩, by rfl⟩
    · exact ⟨⟨0⟩, by rfl⟩
  obtain ⟨⟨others, other, hother, hothers⟩, hagree⟩ :=
    runs_agree htrace hrestores hsame hcutoffs
  refine ⟨events, engine, others, other, htrace, hcheck.1, hcheck.2, hother, ?_, ?_,
    hagree others other hother hothers⟩
  · rw [hcalls]
    rfl
  · rw [hothers]
    rfl

end ExposureControl.Shadow
