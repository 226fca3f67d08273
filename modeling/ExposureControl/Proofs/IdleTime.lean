import ExposureControl.Proofs.TallyBounds
import ExposureControl.Proofs.Trace

/-!
# Time that is charged

Statistics fade for the time since the last change, and each change takes its time as the new
mark, also a time before the old one.  So the time charged since a call is at most what has passed
by the clock since then, and what the clock was set back on the way: only a stretch over which it
was set back is charged again.
-/

namespace ExposureControl.Stats

/-! ## Calls and their charges -/

/-- A selection of an arm, or a reward for it. -/
inductive Call
  | selection (halfLife : Span) (now : Instant)
  | reward (gained : Float) (halfLife : Span) (now : Instant)

namespace Call

def time : Call → Instant
  | selection _ now => now
  | reward _ _ now => now

def halfLife : Call → Span
  | selection halfLife _ => halfLife
  | reward _ halfLife _ => halfLife

/-- Whether a call is acted on; a reward that is not finite is dropped. -/
def counts : Call → Bool
  | selection .. => true
  | reward gained .. => gained.isFinite

/-- The factor of the fading that a call is charged, if it is charged any. -/
def factor? (charge : Int) (call : Call) : Option Float :=
  if charge ≤ 0 then none else some (fadeFactor call.halfLife charge)

/-- What a call adds to a tally that has faded. -/
def settle (tally : RewardTally Float) : Call → RewardTally Float
  | selection .. => tally
  | reward gained .. => if gained.isFinite then tally.observe gained else tally

end Call

/-- One call of statistics with the milliseconds for which it made them fade. -/
abbrev Event := ExposureControl.Event Stats Call Int

def perform (stats : Stats) : Call → Except Fault (Stats × Int)
  | .selection halfLife now => do
    return (← stats.registerPull halfLife now, stats.idleMillis now)
  | .reward gained halfLife now => do
    let next ← stats.recordReward gained halfLife now
    return (next, if gained.isFinite then stats.idleMillis now else 0)

/-- The statistics after a call, and its charge. -/
inductive Performed (stats : Stats) (call : Call) : Stats → Int → Prop
  | counted {next : Stats} (hcounts : call.counts = true)
      (hupdated : next.lastUpdated = some call.time) :
      Performed stats call next (stats.idleMillis call.time)
  | dropped (hcounts : call.counts = false) : Performed stats call stats 0

section

variable {stats next : Stats} {call : Call} {charge : Int}

theorem lastUpdated_of_registerPull {halfLife : Span} {now : Instant}
    (h : stats.registerPull halfLife now = .ok next) : next.lastUpdated = some now := by
  simp only [registerPull, Fault.bind_eq_ok_iff, Fault.pure_eq_ok_iff] at h
  obtain ⟨_, -, rfl⟩ := h
  rfl

theorem recordReward_of_not_finite {gained : Float} (hdropped : gained.isFinite = false)
    (halfLife : Span) (now : Instant) : stats.recordReward gained halfLife now = .ok stats := by
  rw [recordReward, if_neg (by rw [hdropped]; exact Bool.false_ne_true)]

theorem lastUpdated_of_recordReward {gained : Float} {halfLife : Span} {now : Instant}
    (hfinite : gained.isFinite = true) (h : stats.recordReward gained halfLife now = .ok next) :
    next.lastUpdated = some now := by
  simp only [recordReward, hfinite, if_true, Fault.bind_eq_ok_iff, Fault.pure_eq_ok_iff] at h
  obtain ⟨_, -, rfl⟩ := h
  rfl

/-- A call that is acted on leaves its time behind, and is charged for the time since the last
one; a dropped one does nothing. -/
theorem performed_of_perform (hdone : stats.perform call = .ok (next, charge)) :
    Performed stats call next charge := by
  cases call with
  | selection halfLife now =>
    simp only [perform, Fault.bind_eq_ok_iff, Fault.pure_eq_ok_iff, Prod.mk.injEq] at hdone
    obtain ⟨_, hpull, rfl, rfl⟩ := hdone
    exact .counted rfl (lastUpdated_of_registerPull hpull)
  | reward gained halfLife now =>
    simp only [perform, Fault.bind_eq_ok_iff, Fault.pure_eq_ok_iff, Prod.mk.injEq] at hdone
    obtain ⟨_, hreward, rfl, rfl⟩ := hdone
    cases hfinite : gained.isFinite with
    | true =>
      rw [if_pos rfl]
      exact .counted hfinite (lastUpdated_of_recordReward hfinite hreward)
    | false =>
      rw [recordReward_of_not_finite hfinite, Except.ok.injEq] at hreward
      subst hreward
      rw [if_neg Bool.false_ne_true]
      exact .dropped hfinite

theorem idleMillis_nonneg (stats : Stats) (now : Instant) : 0 ≤ stats.idleMillis now := by
  unfold idleMillis
  split
  · exact Int.le_refl 0
  · exact Int.le_max_left _ _

/-- What is charged is whole milliseconds of the time since the last change. -/
theorem idleMillis_le {last : Instant} (hlast : stats.lastUpdated = some last) (now : Instant) :
    1000 * stats.idleMillis now ≤ max 0 (now.micros - last.micros) := by
  rw [idleMillis, hlast]
  dsimp only [Instant.since, Span.wholeMillis]
  obtain hahead | hbehind := Int.le_total last.micros now.micros
  · rw [Int.tdiv_eq_ediv_of_nonneg (by omega)]
    omega
  · have hnone : (now.micros - last.micros).tdiv 1000 ≤ 0 := by
      rw [← Int.neg_nonneg, ← Int.neg_tdiv]
      exact Int.tdiv_nonneg (by omega) (by decide)
    omega

theorem Performed.charge_nonneg (h : Performed stats call next charge) : 0 ≤ charge := by
  cases h with
  | counted => exact idleMillis_nonneg stats call.time
  | dropped => exact Int.le_refl 0

theorem Performed.lastUpdated_of_counts (h : Performed stats call next charge)
    (hcounts : call.counts = true) : next.lastUpdated = some call.time := by
  cases h with
  | counted _ hupdated => exact hupdated
  | dropped hdropped => exact nomatch hcounts.symm.trans hdropped

theorem tally_perform (hdone : stats.perform call = .ok (next, charge)) :
    next.tally = call.settle (stats.tally.fadeBy (call.factor? charge)) := by
  cases call with
  | selection halfLife now =>
    simp only [perform, Fault.bind_eq_ok_iff, Fault.pure_eq_ok_iff, Prod.mk.injEq] at hdone
    obtain ⟨_, hpull, rfl, rfl⟩ := hdone
    exact (registerPull_eq_ok hpull).1.trans (tally_fade halfLife now stats)
  | reward gained halfLife now =>
    simp only [perform, Fault.bind_eq_ok_iff, Fault.pure_eq_ok_iff, Prod.mk.injEq] at hdone
    obtain ⟨_, hreward, rfl, rfl⟩ := hdone
    cases hfinite : gained.isFinite with
    | true =>
      rw [(recordReward_eq_ok hfinite hreward).1, tally_fade, Call.settle, if_pos hfinite,
        if_pos rfl]
      rfl
    | false =>
      rw [recordReward_of_not_finite hfinite, Except.ok.injEq] at hreward
      subst hreward
      rw [Call.settle, hfinite]
      rfl

end

/-! ## What a course of calls comes to -/

/-- The milliseconds that calls are charged in total. -/
def charged : List Event → Int
  | [] => 0
  | event :: earlier => event.answer + charged earlier

def greatest (first : Instant) : List Event → Int
  | [] => first.micros
  | event :: earlier => max event.call.time.micros (greatest first earlier)

/-- By how much a call sets the clock back, as statistics see it. -/
def setback (event : Event) : Int :=
  match event.call.counts, event.before.lastUpdated with
  | true, some last => max 0 (last.micros - event.call.time.micros)
  | _, _ => 0

def setbacks : List Event → Int
  | [] => 0
  | event :: earlier => setback event + setbacks earlier

/-- The moments that a call is charged for, if they come to a millisecond. -/
def covers (event : Event) (moment : Instant) : Prop :=
  event.call.counts = true ∧ ∃ last, event.before.lastUpdated = some last ∧ last ≤ moment ∧
    moment < event.call.time

/-- One call moves the time of the last change by what it is charged and some more, or sets it
back. -/
theorem Performed.step {stats next : Stats} {call : Call} {charge : Int} {mark : Instant}
    (h : Performed stats call next charge) (hmark : stats.lastUpdated = some mark) :
    ∃ last, next.lastUpdated = some last ∧
      1000 * charge ≤ last.micros - mark.micros + setback ⟨stats, call, charge, next⟩ ∧
      mark.micros - setback ⟨stats, call, charge, next⟩ ≤ last.micros ∧
      last.micros ≤ max call.time.micros mark.micros := by
  cases h with
  | counted hcounts hupdated =>
    refine ⟨call.time, hupdated, ?_⟩
    have hcharge := idleMillis_le hmark call.time
    simp only [setback, hcounts, hmark]
    omega
  | dropped hcounts =>
    refine ⟨mark, hmark, ?_⟩
    simp only [setback, hcounts]
    omega

section

variable {middle state : Stats} {events : List Event} {mark : Instant}

/-- Calls are charged at most what has passed by the clock, and what it was set back. -/
theorem charged_of_trace (htrace : Trace perform middle events state)
    (hmark : middle.lastUpdated = some mark) :
    ∃ last, state.lastUpdated = some last ∧
      1000 * charged events ≤ last.micros - mark.micros + setbacks events ∧
      mark.micros - setbacks events ≤ last.micros ∧ last.micros ≤ greatest mark events := by
  induction htrace with
  | start => exact ⟨mark, hmark, by simp [charged, setbacks], by simp [setbacks], Int.le_refl _⟩
  | event past done ih =>
    obtain ⟨last, hlast, hcharged, hback, hgreatest⟩ := ih
    obtain ⟨newest, hnewest, hcharge, hmoved, hbound⟩ := (performed_of_perform done).step hlast
    refine ⟨newest, hnewest, ?_⟩
    simp only [charged, setbacks, greatest]
    omega

theorem answer_nonneg (htrace : Trace perform middle events state) :
    ∀ event ∈ events, 0 ≤ event.answer := by
  induction htrace with
  | start => exact fun event hevent => absurd hevent List.not_mem_nil
  | event past done ih =>
    exact List.forall_mem_cons.mpr ⟨(performed_of_perform done).charge_nonneg, ih⟩

end

/-! ## Charges and leads -/

theorem greatest_le_iff {first : Instant} {events : List Event} {bound : Int} :
    greatest first events ≤ bound ↔
      first.micros ≤ bound ∧ ∀ event ∈ events, event.call.time.micros ≤ bound := by
  induction events with
  | nil => simp [greatest]
  | cons event earlier ih =>
    rw [greatest, max_le_iff, ih, List.forall_mem_cons]
    exact and_left_comm

theorem exists_greatest (latest : Event) (events : List Event) :
    ∃ event ∈ latest :: events, greatest latest.call.time events = event.call.time.micros := by
  induction events with
  | nil => exact ⟨latest, List.mem_cons_self, rfl⟩
  | cons event earlier ih =>
    obtain ⟨found, hfound, hgreatest⟩ := ih
    rw [greatest]
    obtain hlater | hlater := le_total event.call.time.micros (greatest latest.call.time earlier)
    · refine ⟨found, ?_, by rw [max_eq_right hlater, hgreatest]⟩
      exact (List.sublist_cons_self event earlier).cons_cons latest |>.subset hfound
    · exact ⟨event, by simp, max_eq_left hlater⟩

theorem charged_nonneg {events : List Event} (h : ∀ event ∈ events, 0 ≤ event.answer) :
    0 ≤ charged events := by
  induction events with
  | nil => exact Int.le_refl 0
  | cons event earlier ih =>
    obtain ⟨hevent, hearlier⟩ := List.forall_mem_cons.mp h
    exact Int.add_nonneg hevent (ih hearlier)

/-- Whether no calls are charged more, in total since an earlier call, than the greatest time seen
from that call on lies after it. -/
def ChargedWithinTime (events : List Event) : Prop :=
  ∀ newest later event earlier, events = newest ++ (later ++ event :: earlier) →
    1000 * charged later ≤ greatest event.call.time later - event.call.time.micros

/-- Whether every call that follows on others is charged at most the time by which it is later than
all of them. -/
def ChargedWithinLead (events : List Event) : Prop :=
  ∀ newest event latest earlier, events = newest ++ event :: latest :: earlier →
    1000 * event.answer ≤ max 0 (event.call.time.micros - greatest latest.call.time earlier)

section

variable {events : List Event}

/-- Where every charge is within its lead, the leads add up to at most the time that has passed. -/
theorem ChargedWithinLead.withinTime (h : ChargedWithinLead events) :
    ChargedWithinTime events := by
  intro newest later event earlier hevents
  induction later generalizing newest with
  | nil => simp [charged, greatest]
  | cons next later ih =>
    have hrest := ih (newest ++ [next]) (by rw [hevents]; simp)
    obtain ⟨latest, others, hothers⟩ := List.exists_cons_of_ne_nil
      (List.append_ne_nil_of_right_ne_nil later (List.cons_ne_nil event earlier))
    have hlead := h newest next latest others (by rw [hevents, ← hothers]; rfl)
    have hall := greatest_le_iff.mp (Int.le_refl (greatest latest.call.time others))
    have hbound : greatest event.call.time later ≤ greatest latest.call.time others := by
      have hmem : ∀ other ∈ later ++ event :: earlier,
          other.call.time.micros ≤ greatest latest.call.time others := by
        rw [hothers]
        exact List.forall_mem_cons.mpr hall
      exact greatest_le_iff.mpr ⟨hmem event (by simp),
        fun other hother => hmem other (List.mem_append_left _ hother)⟩
    simp only [charged, greatest]
    omega

/-- A charge beyond its lead is one beyond the time since the latest of the calls before it. -/
theorem ChargedWithinTime.withinLead (h : ChargedWithinTime events)
    (hnonneg : ∀ event ∈ events, 0 ≤ event.answer) : ChargedWithinLead events := by
  intro newest event latest earlier hevents
  obtain ⟨first, hfirst, hgreatest⟩ := exists_greatest latest earlier
  obtain ⟨after, before, hsplit⟩ := List.append_of_mem hfirst
  have htime := h newest (event :: after) first before (by rw [hevents, hsplit]; rfl)
  have hafter : 0 ≤ charged after := charged_nonneg fun other hother =>
    hnonneg other (by rw [hevents, hsplit]; simp [hother])
  have hall := greatest_le_iff.mp (Int.le_of_eq hgreatest)
  have hbound : greatest first.call.time after ≤ first.call.time.micros := by
    have hmem : ∀ other ∈ after ++ first :: before,
        other.call.time.micros ≤ first.call.time.micros := by
      rw [← hsplit]
      exact List.forall_mem_cons.mpr hall
    exact greatest_le_iff.mpr ⟨Int.le_refl _,
      fun other hother => hmem other (List.mem_append_left _ hother)⟩
  simp only [charged, greatest] at htime
  omega

end

/-! ## What calls are charged -/

/-- What a course of calls is charged, newest call first. -/
structure ChargesTime (events : List Event) : Prop where
  /-- The tally fades for what a call is charged, and for nothing else. -/
  faded : ∀ event ∈ events, event.after.tally =
    event.call.settle (event.before.tally.fadeBy (event.call.factor? event.answer))
  /-- From a call that is acted on, charges come to at most the greatest time seen since then less
  its own, and what the clock was set back in between. -/
  bounded : ∀ newest later event earlier, events = newest ++ (later ++ event :: earlier) →
    event.call.counts = true → 1000 * charged later ≤
      greatest event.call.time later - event.call.time.micros + setbacks later
  /-- No moment is charged twice unless the clock is set back in between. -/
  apart : ∀ newest second between first earlier,
    events = newest ++ second :: (between ++ first :: earlier) → setbacks between = 0 →
      ∀ moment, ¬(covers first moment ∧ covers second moment)
  /-- What the clock is set back can be left out exactly if no charge exceeds its lead. -/
  within_iff : ChargedWithinTime events ↔ ChargedWithinLead events

/-- Whatever times calls are made at, what they are charged since one of them is at most the time
that has passed and what the clock was set back. -/
theorem charged_up_to_setbacks {start state : Stats} {events : List Event}
    (htrace : Trace perform start events state) : ChargesTime events where
  faded event hevent := by
    obtain ⟨later, earlier, rfl⟩ := List.append_of_mem hevent
    exact tally_perform htrace.split.2.1
  bounded newest later event earlier hevents hcounts := by
    subst hevents
    obtain ⟨middle, hpast, -⟩ := htrace.of_append
    obtain ⟨-, hdone, hlater⟩ := hpast.split
    obtain ⟨last, -, hcharged, -, hgreatest⟩ := charged_of_trace hlater
      ((performed_of_perform hdone).lastUpdated_of_counts hcounts)
    omega
  apart newest second between first earlier hevents hsetbacks moment := by
    rintro ⟨⟨hcounts, -, -, -, hfirst⟩, -, last, hlast, hsecond, -⟩
    subst hevents
    obtain ⟨hpast, -, -⟩ := htrace.split
    obtain ⟨-, hdone, hbetween⟩ := hpast.split
    obtain ⟨mark, hmark, -, hback, -⟩ := charged_of_trace hbetween
      ((performed_of_perform hdone).lastUpdated_of_counts hcounts)
    obtain rfl := Option.some.inj (hmark.symm.trans hlast)
    rw [Instant.lt_iff] at hfirst
    rw [Instant.le_iff] at hsecond
    omega
  within_iff := ⟨fun h => h.withinLead (answer_nonneg htrace), ChargedWithinLead.withinTime⟩

/-! ## A clock that is set back -/

def selectionsAt (seconds : List Int) : List Call :=
  seconds.map fun second => .selection (.ofSeconds 5) ⟨second * 1000000⟩

/-- A reward, and ten seconds of selections, the last five of which pass twice. -/
def fiveSecondsTwice : List Call :=
  .reward 1.0 (.ofSeconds 5) ⟨0⟩ :: selectionsAt [10, 5, 10]

/-- Ten seconds, the last five of which pass twice, are charged as fifteen. -/
theorem charged_up_to_setbacks_of_five_seconds :
    ∃ events state, Trace perform .empty events state ∧
      (events.map ExposureControl.Event.call).reverse = fiveSecondsTwice ∧
      events.map ExposureControl.Event.answer = [5000, 0, 10000, 0] ∧
      setbacks events = 5000000 ∧ ChargesTime events := by
  have hreplays : Trace.replays perform .empty fiveSecondsTwice
      (fun events _ => decide (events.map ExposureControl.Event.answer = [5000, 0, 10000, 0] ∧
        setbacks events = 5000000)) = true := rfl
  obtain ⟨events, state, htrace, hcalls, hcheck⟩ := Trace.exists_of_replays hreplays
  obtain ⟨hcharges, hsetbacks⟩ := of_decide_eq_true hcheck
  exact ⟨events, state, htrace, hcalls, hcharges, hsetbacks, charged_up_to_setbacks htrace⟩

/-- Whether all calls after the first are charged more than the greatest time lies after that. -/
def exceedsTime (events : List Event) : Bool :=
  events.getLast?.any fun first =>
    decide (greatest first.call.time events.dropLast - first.call.time.micros <
      1000 * charged events.dropLast)

theorem not_chargedWithinTime_of_exceedsTime {events : List Event}
    (hexceeds : exceedsTime events = true) : ¬ChargedWithinTime events := by
  intro hwithin
  obtain ⟨first, hfirst, hgreater⟩ := (Option.any_eq_true _ _).mp hexceeds
  have hless := of_decide_eq_true hgreater
  have htime := hwithin [] events.dropLast first []
    (List.dropLast_append_getLast? first hfirst).symm
  omega

/-- If the clock is set back by five seconds, the total charge since the first call is beyond the
time that has passed; so it is if a call is dropped, seen from that call. -/
theorem charged_beyond_time :
    (∃ events state, Trace perform .empty events state ∧
      (events.map ExposureControl.Event.call).reverse = fiveSecondsTwice ∧
      ¬ChargedWithinTime events) ∧
    ∃ events state, Trace perform (.ofMoments 0.0 0.0 0 ⟨0⟩) events state ∧
      (events.map ExposureControl.Event.call).reverse =
        .reward Binary64.undefined (.ofSeconds 5) ⟨100000000⟩ :: selectionsAt [101] ∧
      ¬ChargedWithinTime events := by
  have hsetback : Trace.replays perform .empty fiveSecondsTwice
      (fun events _ => exceedsTime events) = true := rfl
  have hdropped : Trace.replays perform (.ofMoments 0.0 0.0 0 ⟨0⟩)
      (.reward Binary64.undefined (.ofSeconds 5) ⟨100000000⟩ :: selectionsAt [101])
      (fun events _ => exceedsTime events) = true := rfl
  constructor
  · obtain ⟨events, state, htrace, hcalls, hexceeds⟩ := Trace.exists_of_replays hsetback
    exact ⟨events, state, htrace, hcalls, not_chargedWithinTime_of_exceedsTime hexceeds⟩
  · obtain ⟨events, state, htrace, hcalls, hexceeds⟩ := Trace.exists_of_replays hdropped
    exact ⟨events, state, htrace, hcalls, not_chargedWithinTime_of_exceedsTime hexceeds⟩

end ExposureControl.Stats
