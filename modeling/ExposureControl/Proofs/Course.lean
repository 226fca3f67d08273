import ExposureControl.Proofs.ArenaStep
import ExposureControl.Proofs.DeskRun
import ExposureControl.Proofs.History

/-!
# The course of a run

What a step does to the clock, to the age up to which cost samples are kept, and to the shadow
book.  Along a run the clock goes where the commands send it, the age stays, and a position that
was opened by the engine is closed at most once.
-/

namespace ExposureControl

/-! ## The clock -/

namespace Command

def clockAfter (clock : Instant) : Command → Instant
  | .advance span => ⟨clock.micros + span.micros⟩
  | .setClock time => time
  | _ => clock

end Command

namespace Governor

/-- Two governors with the same clock, the same cost desk and the same shadow book. -/
structure SameBooks (before after : Governor) : Prop where
  clock : after.clock = before.clock
  costs : after.costs = before.costs
  book : after.shadow.book = before.shadow.book

namespace SameBooks

variable {before middle after : Governor}

theorem trans (hfirst : SameBooks before middle) (hsecond : SameBooks middle after) :
    SameBooks before after :=
  ⟨hsecond.clock.trans hfirst.clock, hsecond.costs.trans hfirst.costs,
    hsecond.book.trans hfirst.book⟩

theorem forwardFills (fills : List Shadow.BookedFill) (governor : Governor) :
    SameBooks governor (fills.foldl Governor.forwardFill governor) := by
  induction fills generalizing governor with
  | nil => exact ⟨rfl, rfl, rfl⟩
  | cons fill rest ih =>
    have hfirst : SameBooks governor (governor.forwardFill fill) := ⟨rfl, rfl, rfl⟩
    exact hfirst.trans (ih (governor.forwardFill fill))

end SameBooks

end Governor

/-! ## The shadow book -/

namespace Shadow.Engine

variable {settings : Settings.Shadow} {symbol : String} {result : Float} {engine : Engine}

@[simp]
theorem book_checkDivergence : (engine.checkDivergence settings symbol).1.book = engine.book := by
  dsimp only [checkDivergence]
  split <;> rfl

@[simp]
theorem book_bookLive : (engine.bookLive settings symbol result).1.book = engine.book := by
  unfold bookLive
  split
  · exact book_checkDivergence
  · rfl

@[simp]
theorem book_bookShadow : (engine.bookShadow settings symbol result).1.book = engine.book := by
  unfold bookShadow
  split
  · exact book_checkDivergence
  · rfl

theorem book_bookCloses (positions : List Position) (engine : Engine) :
    (bookCloses settings symbol positions engine).1.book = engine.book := by
  induction positions generalizing engine with
  | nil => rfl
  | cons position rest ih =>
    dsimp only [bookCloses]
    rw [ih]
    exact book_bookShadow

/-- A price that is acted on changes the book as it triggers. -/
theorem book_priceTick {price : Float} {now : Instant} {after : Engine} {closed : List Position}
    {fills : List BookedFill}
    (htick : engine.priceTick settings symbol price now = .ok (after, closed, fills)) :
    after.book = engine.book ∨
      ∃ closed, engine.book.trigger symbol price now = .ok (after.book, closed) := by
  unfold priceTick at htick
  split at htick
  · simp only [Fault.bind_eq_ok_iff, Fault.pure_eq_ok_iff, Prod.mk.injEq, Prod.exists] at htick
    obtain ⟨book, closed, htrigger, rfl, -, -⟩ := htick
    rw [book_bookCloses]
    exact .inr ⟨closed, htrigger⟩
  · simp only [Except.ok.injEq, Prod.mk.injEq] at htick
    rw [htick.1]
    exact .inl rfl

theorem book_register (ticket : Ticket) (now : Instant) :
    (engine.register settings ticket now).1.book = engine.book ∨
      ∃ id, (engine.register settings ticket now).1.book =
        engine.book.insert (.create id ticket now) := by
  unfold register
  split
  · exact .inr ⟨_, rfl⟩
  · exact .inl rfl

end Shadow.Engine

/-- The shadow book after a step that puts no record on file. -/
inductive BookStep (book : Shadow.Book) : Shadow.Book → Prop
  | kept : BookStep book book
  | opened (id : ObjectId) (ticket : Shadow.Ticket) (now : Instant) :
      BookStep book (book.insert (.create id ticket now))
  | triggered {symbol : String} {price : Float} {now : Instant} {next : Shadow.Book}
      {closed : List Shadow.Position}
      (htrigger : book.trigger symbol price now = .ok (next, closed)) : BookStep book next
  | pruned (cutoff : Instant) : BookStep book (book.pruneBefore cutoff).1

/-! ## Every command -/

namespace Governor

/-- What a step does to the clock, to the age of cost samples and to the shadow book. -/
structure Course (before : Governor) (command : Command) (after : Governor) : Prop where
  clock : after.clock = command.clockAfter before.clock
  retention : after.costs.history.retention = before.costs.history.retention
  book : (∀ position, command ≠ .restorePosition position) →
    BookStep before.shadow.book after.shadow.book

variable {governor next : Governor}

theorem SameBooks.course {command : Command} (hsame : SameBooks governor next)
    (hcommand : command.clockAfter governor.clock = governor.clock) :
    governor.Course command next :=
  ⟨hsame.clock.trans hcommand.symm, by rw [hsame.costs], fun _ => hsame.book ▸ .kept⟩

theorem Course.fill {order : String} {price : Float} {spread : Option Float}
    {filledAt : Option Instant} {sample : Option Costs.Sample}
    (hfill : governor.fill order price spread filledAt = .ok (next, sample)) :
    governor.Course (.fill order price spread filledAt) next := by
  simp only [Governor.fill, Fault.bind_eq_ok_iff, Fault.pure_eq_ok_iff, Prod.mk.injEq,
    Prod.exists] at hfill
  obtain ⟨costs, _, hdesk, rfl, -⟩ := hfill
  exact ⟨rfl, (Costs.Desk.fillStep_of_fill hdesk).retention, fun _ => .kept⟩

theorem Course.pruneExpired {now : Instant} {removals : Removals}
    (hprune : governor.pruneExpired now = .ok (next, removals)) :
    governor.Course (.pruneExpired now) next := by
  simp only [Governor.pruneExpired, Costs.Desk.pruneExpired, Costs.History.pruneExpired,
    Shadow.Engine.pruneExpired, Fault.bind_eq_ok_iff, Fault.pure_eq_ok_iff, Prod.mk.injEq,
    Prod.exists] at hprune
  obtain ⟨_, _, ⟨_, _, ⟨_, -, rfl, -⟩, _, -, _, -, rfl, -⟩, _, _, -, _, _,
    ⟨_, -, cutoff, -, rfl, -⟩, _, -, _, -, rfl, -⟩ := hprune
  exact ⟨rfl, rfl, fun _ => .pruned cutoff⟩

theorem Course.priceTick {symbol : String} {price : Float} {closed : List Shadow.Position}
    (htick : governor.priceTick symbol price = .ok (next, closed)) :
    governor.Course (.priceTick symbol price) next := by
  simp only [Governor.priceTick, Fault.bind_eq_ok_iff, Fault.pure_eq_ok_iff, Prod.mk.injEq,
    Prod.exists] at htick
  obtain ⟨shadow, _, fills, hticked, rfl, -⟩ := htick
  have hforwarded := SameBooks.forwardFills fills { governor with shadow }
  refine ⟨hforwarded.clock, by rw [hforwarded.costs], fun _ => ?_⟩
  rw [hforwarded.book]
  obtain hkept | ⟨_, htrigger⟩ := Shadow.Engine.book_priceTick hticked
  · exact hkept ▸ .kept
  · exact .triggered htrigger

/-- Every step takes this course. -/
theorem course_of_step {command : Command} {answer : Except Refusal Reply}
    (hstep : governor.step command = .ok (next, answer)) : governor.Course command next := by
  cases command with
  | advance span =>
    simp only [step, advance, Instant.after, answering, Fault.bind_eq_ok_iff, Fault.pure_eq_ok_iff,
      Instant.checked_eq_ok_iff, Except.ok.injEq, Prod.mk.injEq] at hstep
    obtain ⟨_, ⟨clock, ⟨rfl, -⟩, rfl⟩, rfl, -⟩ := hstep
    exact ⟨rfl, rfl, fun _ => .kept⟩
  | setClock time =>
    simp only [step, answering, Except.ok.injEq, Prod.mk.injEq] at hstep
    obtain ⟨rfl, -⟩ := hstep
    exact ⟨rfl, rfl, fun _ => .kept⟩
  | submit submission =>
    simp only [step, answering, Except.ok.injEq, Prod.mk.injEq] at hstep
    obtain ⟨rfl, -⟩ := hstep
    refine ⟨rfl, ?_, fun _ => .kept⟩
    dsimp only [Governor.submit, Costs.Desk.submit]
    split <;> rfl
  | fill order price spread filledAt =>
    simp only [step, answering, Fault.bind_eq_ok_iff, Except.ok.injEq, Prod.mk.injEq] at hstep
    obtain ⟨filled, hfill, rfl, -⟩ := hstep
    exact .fill hfill
  | registerShadow ticket =>
    simp only [step, answering, Except.ok.injEq, Prod.mk.injEq] at hstep
    obtain ⟨rfl, -⟩ := hstep
    refine ⟨rfl, rfl, fun _ => ?_⟩
    obtain hkept | ⟨id, hopened⟩ := Shadow.Engine.book_register ticket governor.clock
    · exact hkept ▸ .kept
    · exact hopened ▸ .opened id ticket governor.clock
  | priceTick symbol price =>
    simp only [step, answering, Fault.bind_eq_ok_iff, Except.ok.injEq, Prod.mk.injEq] at hstep
    obtain ⟨ticked, htick, rfl, -⟩ := hstep
    exact .priceTick htick
  | restorePosition position =>
    simp only [step, answering, Except.ok.injEq, Prod.mk.injEq] at hstep
    obtain ⟨rfl, -⟩ := hstep
    exact ⟨rfl, rfl, fun hcommand => absurd rfl (hcommand position)⟩
  | pruneExpired now =>
    simp only [step, answering, Fault.bind_eq_ok_iff, Except.ok.injEq, Prod.mk.injEq] at hstep
    obtain ⟨pruned, hprune, rfl, -⟩ := hstep
    exact .pruneExpired hprune
  | reportLive symbol result =>
    simp only [step, answering, Except.ok.injEq, Prod.mk.injEq] at hstep
    obtain ⟨rfl, -⟩ := hstep
    exact SameBooks.course ⟨rfl, rfl, Shadow.Engine.book_bookLive⟩ rfl
  | bookLive symbol result =>
    simp only [step, answering, Except.ok.injEq, Prod.mk.injEq] at hstep
    obtain ⟨rfl, -⟩ := hstep
    exact SameBooks.course ⟨rfl, rfl, Shadow.Engine.book_bookLive⟩ rfl
  | reportShadow symbol result =>
    simp only [step, answering, Except.ok.injEq, Prod.mk.injEq] at hstep
    obtain ⟨rfl, -⟩ := hstep
    have hbooked : SameBooks governor { governor with
        shadow := (governor.shadow.bookShadow governor.settings.shadow symbol result).1 } :=
      ⟨rfl, rfl, Shadow.Engine.book_bookShadow⟩
    exact (hbooked.trans (.forwardFills _ _)).course rfl
  | recordTradeResult _ _ | resetMonitor | setKillSwitch _ | setMode _ | clearAlerts =>
    simp only [step, answering, Except.ok.injEq, Prod.mk.injEq] at hstep
    obtain ⟨rfl, -⟩ := hstep
    exact SameBooks.course ⟨rfl, rfl, rfl⟩ rfl
  | _ =>
    rw [eq_withArena_of_step rfl (fun _ => Command.noConfusion) hstep]
    exact SameBooks.course ⟨rfl, rfl, rfl⟩ rfl

end Governor

end ExposureControl
