import ExposureControl.Fault

/-!
# Traces

A component answers calls, one after the other, and a call may be a fault.  A trace is what
happened so far, seen from its end: the calls, newest first, each with the state before it, its
answer, and the state after it.
-/

namespace ExposureControl

/-- One call with its answer, and the state on either side of it. -/
structure Event (State Call Answer : Type) where
  before : State
  call : Call
  answer : Answer
  after : State

section

variable {State Call Answer : Type}

/-- The events, newest first, that lead from `start` to a state. -/
inductive Trace (step : State → Call → Except Fault (State × Answer)) (start : State) :
    List (Event State Call Answer) → State → Prop
  /-- Nothing has happened yet. -/
  | start : Trace step start [] start
  /-- One more call was answered. -/
  | event {events : List (Event State Call Answer)} {state next : State} {call : Call}
      {answer : Answer} (past : Trace step start events state)
      (done : step state call = .ok (next, answer)) :
      Trace step start (⟨state, call, answer, next⟩ :: events) next

namespace Trace

variable {step : State → Call → Except Fault (State × Answer)} {start state : State}
  {events later past : List (Event State Call Answer)} {event : Event State Call Answer}

theorem of_append (htrace : Trace step start (later ++ past) state) :
    ∃ middle, Trace step start past middle ∧ Trace step middle later state := by
  induction later generalizing state with
  | nil => exact ⟨state, htrace, .start⟩
  | cons event later ih =>
    cases htrace with
    | event hpast hdone =>
      obtain ⟨middle, hbefore, hafter⟩ := ih hpast
      exact ⟨middle, hbefore, hafter.event hdone⟩

/-- The events before one of a trace lead to the state before it, and those after it lead on from
the state after it. -/
theorem split (htrace : Trace step start (later ++ event :: past) state) :
    Trace step start past event.before ∧
      step event.before event.call = .ok (event.after, event.answer) ∧
      Trace step event.after later state := by
  obtain ⟨middle, hfirst, hlater⟩ := htrace.of_append
  cases hfirst with
  | event hpast hdone => exact ⟨hpast, hdone, hlater⟩

theorem unique {other : State} {others : List (Event State Call Answer)}
    (htrace : Trace step start events state) (hother : Trace step start others other)
    (hcalls : others.map Event.call = events.map Event.call) :
    others = events ∧ other = state := by
  induction htrace generalizing others other with
  | start =>
    cases hother with
    | start => exact ⟨rfl, rfl⟩
    | event => cases hcalls
  | event past done ih =>
    cases hother with
    | start => cases hcalls
    | event hpast hdone =>
      obtain ⟨hcall, hearlier⟩ := List.cons.inj hcalls
      dsimp only at hcall
      obtain ⟨rfl, rfl⟩ := ih hpast hearlier
      subst hcall
      obtain ⟨rfl, rfl⟩ := Prod.mk.inj (Except.ok.inj (done.symm.trans hdone))
      exact ⟨rfl, rfl⟩

/-- Answer calls one after the other, and put their events in front of `events`. -/
def replay (step : State → Call → Except Fault (State × Answer)) (state : State)
    (events : List (Event State Call Answer)) :
    List Call → Except Fault (List (Event State Call Answer) × State)
  | [] => .ok (events, state)
  | call :: rest => do
    let (next, answer) ← step state call
    replay step next (⟨state, call, answer, next⟩ :: events) rest

theorem of_replay {final : State} {all : List (Event State Call Answer)} {calls : List Call}
    (hpast : Trace step start events state)
    (hreplay : replay step state events calls = .ok (all, final)) :
    Trace step start all final := by
  induction calls generalizing state events with
  | nil =>
    simp only [replay, Except.ok.injEq, Prod.mk.injEq] at hreplay
    rw [← hreplay.1, ← hreplay.2]
    exact hpast
  | cons call rest ih =>
    simp only [replay, Fault.bind_eq_ok_iff] at hreplay
    obtain ⟨⟨next, answer⟩, hdone, hrest⟩ := hreplay
    exact ih (hpast.event hdone) hrest

theorem calls_of_replay {final : State} {all : List (Event State Call Answer)}
    {calls : List Call} (hreplay : replay step state events calls = .ok (all, final)) :
    (all.map Event.call).reverse = (events.map Event.call).reverse ++ calls := by
  induction calls generalizing state events with
  | nil =>
    simp only [replay, Except.ok.injEq, Prod.mk.injEq] at hreplay
    rw [hreplay.1, List.append_nil]
  | cons call rest ih =>
    simp only [replay, Fault.bind_eq_ok_iff] at hreplay
    obtain ⟨⟨next, answer⟩, -, hrest⟩ := hreplay
    rw [ih hrest, List.map_cons, List.reverse_cons, List.append_assoc]
    rfl

/-- Whether calls can be answered, with events and a last state that pass a check. -/
def replays (step : State → Call → Except Fault (State × Answer)) (start : State)
    (calls : List Call) (check : List (Event State Call Answer) → State → Bool) : Bool :=
  match replay step start [] calls with
  | .error _ => false
  | .ok (events, state) => check events state

/-- Calls that can be answered make a trace. -/
theorem exists_of_replays {calls : List Call}
    {check : List (Event State Call Answer) → State → Bool}
    (hreplays : replays step start calls check = true) :
    ∃ events state, Trace step start events state ∧ (events.map Event.call).reverse = calls ∧
      check events state = true := by
  unfold replays at hreplays
  split at hreplays
  · cases hreplays
  · next events state hreplay =>
    exact ⟨events, state, Trace.start.of_replay hreplay, by simpa using calls_of_replay hreplay,
      hreplays⟩

end Trace

end

end ExposureControl
