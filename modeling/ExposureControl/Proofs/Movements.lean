import ExposureControl.Proofs.Bookings

/-!
# Movements

Two things move the totals of a symbol: a close that is counted, and a finite result that is added.
What a call of the shadow engine moves depends on the positions of its symbol alone.  The totals
of a run are those of its movements, one after the other, and its alerts are read off the totals
as they are right after each result.
-/

namespace ExposureControl

def Alert.concerns (symbol : String) : Alert → Bool
  | .divergence diverging .. => diverging = symbol
  | _ => false

namespace Shadow

/-- What moves the totals of a symbol. -/
inductive Movement
  /-- One more close. -/
  | close
  /-- The finite result of a trade. -/
  | result (track : Drift.Track) (amount : Float)

namespace Movement

def of? (track : Drift.Track) (amount : Float) : Option Movement :=
  if amount.isFinite then some (.result track amount) else none

/-- The movements of a close with its result: it is counted first. -/
def ofClose (profit : Float) : List Movement := .close :: (of? .shadow profit).toList

def isClose : Movement → Bool
  | close => true
  | result .. => false

/-- Movements of one symbol, and none of any other. -/
def only (symbol : String) (movements : List Movement) (other : String) : List Movement :=
  if other = symbol then movements else []

@[simp]
theorem only_self (symbol : String) (movements : List Movement) :
    only symbol movements symbol = movements := if_pos rfl

theorem only_of_ne {symbol other : String} (hother : other ≠ symbol) (movements : List Movement) :
    only symbol movements other = [] := if_neg hother

theorem only_nil (symbol : String) : only symbol [] = fun _ => [] := by
  funext other
  unfold only
  split <;> rfl

theorem only_append (symbol : String) (first second : List Movement) :
    only symbol (first ++ second) = fun other => only symbol first other ++ only symbol second other
    := by
  funext other
  unfold only
  split <;> rfl

end Movement

namespace Totals

def move (totals : Totals) : Movement → Totals
  | .close => { totals with closedTrades := totals.closedTrades + 1 }
  | .result track amount => totals.credit track amount

def moves (totals : Totals) (movements : List Movement) : Totals := movements.foldl move totals

@[simp]
theorem moves_nil (totals : Totals) : totals.moves [] = totals := rfl

theorem moves_append (totals : Totals) (first second : List Movement) :
    totals.moves (first ++ second) = (totals.moves first).moves second := List.foldl_append

/-- The totals right after each result among movements. -/
def moments (totals : Totals) : List Movement → List Totals
  | [] => []
  | .close :: rest => (totals.move .close).moments rest
  | .result track amount :: rest =>
    totals.credit track amount :: (totals.credit track amount).moments rest

@[simp]
theorem moments_nil (totals : Totals) : totals.moments [] = [] := rfl

theorem moments_append (totals : Totals) (first second : List Movement) :
    totals.moments (first ++ second) = totals.moments first ++ (totals.moves first).moments second
    := by
  induction first generalizing totals with
  | nil => rfl
  | cons movement rest ih =>
    cases movement with
    | close => exact ih (totals.move .close)
    | result track amount => exact congrArg (List.cons _) (ih (totals.credit track amount))

/-- Every close is counted. -/
theorem closedTrades_moves (totals : Totals) (movements : List Movement) :
    (totals.moves movements).closedTrades =
      totals.closedTrades + movements.countP Movement.isClose := by
  induction movements generalizing totals with
  | nil => rfl
  | cons movement rest ih =>
    change ((totals.move movement).moves rest).closedTrades = _
    rw [ih]
    cases movement with
    | close =>
      rw [List.countP_cons_of_pos rfl]
      change totals.closedTrades + 1 + _ = _
      omega
    | result track amount =>
      rw [List.countP_cons_of_neg Bool.false_ne_true]
      cases track <;> rfl

/-- The alerts that totals call for at several moments, while the engine is switched on. -/
def raised (settings : Settings.Shadow) (symbol : String) (moments : List Totals) : List Alert :=
  (moments.filter fun totals => settings.enabled && totals.diverges settings).map (alert symbol)

theorem raised_append (settings : Settings.Shadow) (symbol : String) (first second : List Totals) :
    raised settings symbol (first ++ second) =
      raised settings symbol first ++ raised settings symbol second := by
  rw [raised, List.filter_append, List.map_append, raised, raised]

end Totals

/-! ## What a call moves -/

/-- The movements that a call makes of a symbol's totals, where these are its positions. -/
def Call.movements (settings : Settings.Shadow) (symbol : String) (positions : List Position) :
    Call → List Movement
  | .tick ticked price _ =>
    if settings.enabled && price.isFinite then
      Movement.only ticked ((positions.filter (Book.closes price)).flatMap fun position =>
        Movement.ofClose (position.profitAt price)) symbol
    else []
  | .restore position =>
    let replaced := (Book.extract position.id positions).1
    if position.isOpen || replaced.any fun before => !before.isOpen then []
    else Movement.only position.symbol [.close] symbol
  | .bookLive booked result => Movement.only booked (Movement.of? .live result).toList symbol
  | .bookShadow booked result => Movement.only booked (Movement.of? .shadow result).toList symbol
  | .register .. | .prune .. => []

def Answer.alerts : Answer → List Alert
  | .closed _ fills => fills.filterMap BookedFill.alert
  | .bookedLive alert => alert.toList
  | .bookedShadow fill => (fill.bind BookedFill.alert).toList
  | _ => []

namespace Engine

variable {settings : Settings.Shadow} {before middle after engine next : Engine}
  {first second : String → List Movement} {earlier later : List Alert}

/-- Whether an engine got from one state to another by movements of its totals, and raised alerts on
the way. -/
structure Moved (settings : Settings.Shadow) (before : Engine)
    (movements : String → List Movement) (alerts : List Alert) (after : Engine) : Prop where
  totals : ∀ symbol, after.totalsOf symbol = (before.totalsOf symbol).moves (movements symbol)
  raised : ∀ symbol, alerts.filter (Alert.concerns symbol) =
    Totals.raised settings symbol ((before.totalsOf symbol).moments (movements symbol))
  divergences : ∀ alert ∈ alerts, alert.isDivergence = true
  counted : after.alerts = before.alerts + alerts.length

namespace Moved

theorem append (hfirst : Moved settings before first earlier middle)
    (hsecond : Moved settings middle second later after) :
    Moved settings before (fun symbol => first symbol ++ second symbol) (earlier ++ later) after
    where
  totals symbol := by rw [hsecond.totals, hfirst.totals, Totals.moves_append]
  raised symbol := by
    rw [List.filter_append, hfirst.raised, hsecond.raised, hfirst.totals, Totals.moments_append,
      Totals.raised_append]
  divergences alert halert := by
    cases List.mem_append.mp halert with
    | inl hearlier => exact hfirst.divergences alert hearlier
    | inr hlater => exact hsecond.divergences alert hlater
  counted := by
    rw [hsecond.counted, hfirst.counted, List.length_append]
    omega

theorem of_eq (htotals : after.totals = before.totals) (halerts : after.alerts = before.alerts) :
    Moved settings before (fun _ => []) [] after where
  totals symbol := by
    rw [totalsOf, htotals]
    rfl
  raised symbol := rfl
  divergences := nofun
  counted := halerts

theorem of_book {movements : String → List Movement} {alerts : List Alert} {book : Book}
    (hmoved : Moved settings { before with book } movements alerts after) :
    Moved settings before movements alerts after :=
  ⟨hmoved.totals, hmoved.raised, hmoved.divergences, hmoved.counted⟩

theorem close (settings : Settings.Shadow) (symbol : String) (engine : Engine) :
    Moved settings engine (Movement.only symbol [.close]) []
      (engine.changeTotals symbol fun totals =>
        { totals with closedTrades := totals.closedTrades + 1 }) where
  totals other := by
    rw [totalsOf_changeTotals]
    by_cases hother : other = symbol
    · rw [if_pos hother, hother, Movement.only_self]
      rfl
    · rw [if_neg hother, Movement.only_of_ne hother, Totals.moves_nil]
  raised other := by
    by_cases hother : other = symbol
    · rw [hother, Movement.only_self]
      rfl
    · rw [Movement.only_of_ne hother]
      rfl
  divergences := nofun
  counted := rfl

theorem result (settings : Settings.Shadow) (track : Drift.Track) (symbol : String) (amount : Float)
    (engine : Engine) :
    let credited := engine.changeTotals symbol (Totals.credit track amount)
    Moved settings engine (Movement.only symbol [.result track amount])
      (credited.checkDivergence settings symbol).2.toList
      (credited.checkDivergence settings symbol).1 := by
  intro credited
  have hcredited : credited.totalsOf symbol = (engine.totalsOf symbol).credit track amount := by
    rw [totalsOf_changeTotals, if_pos rfl]
  have hothers : ∀ other, credited.totalsOf other =
      (engine.totalsOf other).moves (Movement.only symbol [.result track amount] other) := by
    intro other
    by_cases hother : other = symbol
    · rw [hother, hcredited, Movement.only_self]
      rfl
    · rw [totalsOf_changeTotals, if_neg hother, Movement.only_of_ne hother, Totals.moves_nil]
  by_cases hdue : (settings.enabled &&
      ((engine.totalsOf symbol).credit track amount).diverges settings) = true
  · have hcheck : credited.checkDivergence settings symbol =
        ({ credited with alerts := credited.alerts + 1 },
          some (((engine.totalsOf symbol).credit track amount).alert symbol)) := by
      dsimp only [checkDivergence]
      rw [hcredited, if_pos hdue]
    rw [hcheck]
    refine ⟨hothers, fun other => ?_, fun alert halert => ?_, rfl⟩
    · by_cases hother : other = symbol
      · subst hother
        simp [Totals.raised, Totals.moments, hdue, Totals.alert, Alert.concerns]
      · simp [Totals.raised, Movement.only_of_ne hother, Totals.alert, Alert.concerns,
          Ne.symm hother]
    · rw [Option.toList_some, List.mem_singleton] at halert
      rw [halert]
      rfl
  · have hcheck : credited.checkDivergence settings symbol = (credited, none) := by
      dsimp only [checkDivergence]
      rw [hcredited, if_neg hdue]
    rw [hcheck]
    refine ⟨hothers, fun other => ?_, nofun, rfl⟩
    by_cases hother : other = symbol
    · subst hother
      simp [Totals.raised, Totals.moments, hdue]
    · simp [Totals.raised, Movement.only_of_ne hother]

end Moved

theorem moved_bookLive (settings : Settings.Shadow) (symbol : String) (result : Float)
    (engine : Engine) :
    Moved settings engine (Movement.only symbol (Movement.of? .live result).toList)
      (engine.bookLive settings symbol result).2.toList
      (engine.bookLive settings symbol result).1 := by
  unfold bookLive Movement.of?
  split
  · exact .result settings .live symbol result engine
  · rw [Option.toList_none, Movement.only_nil]
    exact .of_eq rfl rfl

theorem moved_bookShadow (settings : Settings.Shadow) (symbol : String) (result : Float)
    (engine : Engine) :
    Moved settings engine (Movement.only symbol (Movement.of? .shadow result).toList)
      ((engine.bookShadow settings symbol result).2.bind BookedFill.alert).toList
      (engine.bookShadow settings symbol result).1 := by
  unfold bookShadow Movement.of?
  split
  · exact .result settings .shadow symbol result engine
  · rw [Option.toList_none, Movement.only_nil]
    exact .of_eq rfl rfl

/-- A close is counted before its result is booked. -/
theorem moved_bookClose (settings : Settings.Shadow) (symbol : String) (result : Float)
    (engine : Engine) :
    Moved settings engine (Movement.only symbol (Movement.ofClose result))
      ((engine.bookClose settings symbol result).2.bind BookedFill.alert).toList
      (engine.bookClose settings symbol result).1 := by
  have hbooked :=
    (Moved.close settings symbol engine).append (moved_bookShadow settings symbol result _)
  rw [← Movement.only_append] at hbooked
  exact hbooked

theorem filterMap_alert_toList (fill? : Option BookedFill) :
    fill?.toList.filterMap BookedFill.alert = (fill?.bind BookedFill.alert).toList := by
  cases fill? with
  | none => rfl
  | some fill => cases hraised : fill.alert <;> simp [hraised]

/-- Of closes that are booked together, each is counted and booked before the next one. -/
theorem moved_bookCloses (settings : Settings.Shadow) (symbol : String) (positions : List Position)
    (engine : Engine) :
    Moved settings engine
      (Movement.only symbol (positions.flatMap fun position =>
        Movement.ofClose (position.profit.getD 0.0)))
      ((bookCloses settings symbol positions engine).2.filterMap BookedFill.alert)
      (bookCloses settings symbol positions engine).1 := by
  induction positions generalizing engine with
  | nil =>
    rw [List.flatMap_nil, Movement.only_nil]
    exact .of_eq rfl rfl
  | cons position rest ih =>
    dsimp only [bookCloses]
    have hbooked :=
      (moved_bookClose settings symbol (position.profit.getD 0.0) engine).append (ih _)
    rw [List.flatMap_cons, Movement.only_append, List.filterMap_append]
    rw [filterMap_alert_toList]
    exact hbooked

/-- A price that is acted on moves the totals by the closes of what it triggers. -/
theorem moved_priceTick {symbol : String} {price : Float} {now : Instant} {closed : List Position}
    {fills : List BookedFill}
    (htick : engine.priceTick settings symbol price now = .ok (after, closed, fills)) :
    Moved settings engine
      (fun other => (Call.tick symbol price now).movements settings other
        (engine.book.ofSymbol other))
      (fills.filterMap BookedFill.alert) after := by
  unfold priceTick at htick
  dsimp only [Call.movements]
  split at htick
  · next hacted =>
    simp only [Fault.bind_eq_ok_iff, Fault.pure_eq_ok_iff, Prod.mk.injEq, Prod.exists] at htick
    obtain ⟨book, positions, htrigger, rfl, rfl, rfl⟩ := htick
    have hbooked := moved_bookCloses settings symbol positions { engine with book }
    rw [(Book.of_trigger htrigger).2, List.flatMap_map] at hbooked
    have hmovements : (fun other => Movement.only symbol
          (((engine.book.ofSymbol other).filter (Book.closes price)).flatMap fun position =>
            Movement.ofClose (position.profitAt price)) other) =
        Movement.only symbol
          (((engine.book.ofSymbol symbol).filter (Book.closes price)).flatMap fun position =>
            Movement.ofClose (position.profitAt price)) := by
      funext other
      unfold Movement.only
      split
      · next hother => rw [hother]
      · rfl
    simp only [hacted, if_true, hmovements]
    rw [(Book.of_trigger htrigger).2]
    exact hbooked.of_book
  · next hacted =>
    simp only [Except.ok.injEq, Prod.mk.injEq] at htick
    obtain ⟨rfl, rfl, rfl⟩ := htick
    simp only [hacted]
    exact .of_eq rfl rfl

theorem moved_restore (settings : Settings.Shadow) (position : Position) (engine : Engine) :
    Moved settings engine
      (fun symbol => (Call.restore position).movements settings symbol
        (engine.book.ofSymbol symbol)) [] (engine.restore position) := by
  have hmovements : (fun symbol => (Call.restore position).movements settings symbol
        (engine.book.ofSymbol symbol)) =
      Movement.only position.symbol ((Call.restore position).movements settings position.symbol
        (engine.book.ofSymbol position.symbol)) := by
    funext symbol
    by_cases hsymbol : symbol = position.symbol
    · rw [hsymbol, Movement.only_self]
    · dsimp only [Call.movements]
      rw [Movement.only_of_ne hsymbol, Movement.only_of_ne hsymbol, ite_self]
  rw [hmovements]
  have hreplaced : (Book.extract position.id (engine.book.ofSymbol position.symbol)).1 =
      (engine.book.restore position).2 := rfl
  dsimp only [restore, Call.movements]
  rw [hreplaced]
  by_cases hknown : (position.isOpen ||
      (engine.book.restore position).2.any fun before => !before.isOpen) = true
  · rw [if_pos hknown, if_pos hknown, Movement.only_nil]
    exact .of_eq rfl rfl
  · rw [if_neg hknown, if_neg hknown, Movement.only_self]
    exact (Moved.close settings position.symbol _).of_book

/-- A call moves the totals of every symbol as its positions make it. -/
theorem moved_perform {call : Call} {answer : Answer}
    (hperform : engine.perform settings call = .ok (next, answer)) :
    Moved settings engine
      (fun symbol => call.movements settings symbol (engine.book.ofSymbol symbol))
      answer.alerts next := by
  cases performed_iff.mp hperform with
  | register ticket now =>
    rw [register]
    split <;> exact .of_eq rfl rfl
  | tick htick => exact moved_priceTick htick
  | restore position => exact moved_restore settings position engine
  | bookLive symbol result => exact moved_bookLive settings symbol result engine
  | bookShadow symbol result => exact moved_bookShadow settings symbol result engine
  | prune => exact .of_eq rfl rfl

end Engine

/-! ## What a run moves -/

def movementsOf (settings : Settings.Shadow) (symbol : String) : List Event → List Movement
  | [] => []
  | event :: past =>
    movementsOf settings symbol past ++
      event.call.movements settings symbol (event.before.book.ofSymbol symbol)

/-- The alerts that events handed on, oldest first. -/
def alertsOf : List Event → List Alert
  | [] => []
  | event :: past => alertsOf past ++ event.answer.alerts

/-- The totals of a run are those of its movements, and so are its alerts. -/
theorem moved_of_trace {settings : Settings.Shadow} {start engine : Engine} {events : List Event}
    (htrace : Trace (Engine.perform settings) start events engine) :
    start.Moved settings (fun symbol => movementsOf settings symbol events) (alertsOf events) engine
    := by
  induction htrace with
  | start => exact .of_eq rfl rfl
  | event past done ih => exact ih.append (Engine.moved_perform done)

end Shadow

end ExposureControl
