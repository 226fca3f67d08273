import ExposureControl.Proofs.SymbolSpelling
import Mathlib.Data.List.DropRight

/-!
# Room and age of samples

A symbol's samples are bounded in number and in age.  An addition first drops the oldest samples
beyond the room and then those before the cutoff, so what is kept are the latest recent samples,
unless the room was used up and something in it, or the new sample itself, was old while the first
sample was not.  Then one recent sample too many is dropped.
-/

namespace ExposureControl.Costs.History

/-! ## What is kept of a list -/

/-- The recent samples of a list, and of those the last ones that there is room for. -/
def latest (room : Nat) (cutoff : Instant) (samples : List Sample) : List Sample :=
  (keepFrom cutoff samples).rtake room

variable {room : Nat} {cutoff : Instant} {samples : List Sample}

theorem length_keepFrom_le (cutoff : Instant) (samples : List Sample) :
    (keepFrom cutoff samples).length ≤ samples.length :=
  List.length_filter_le _ samples

theorem keepFrom_cons_of_le {sample : Sample} (hrecent : cutoff ≤ sample.filledAt) :
    keepFrom cutoff (sample :: samples) = sample :: keepFrom cutoff samples :=
  List.filter_cons_of_pos (decide_eq_true hrecent)

theorem keepFrom_cons_of_lt {sample : Sample} (hold : sample.filledAt < cutoff) :
    keepFrom cutoff (sample :: samples) = keepFrom cutoff samples :=
  List.filter_cons_of_neg (by rw [decide_eq_true_eq]; exact Int.not_le.mpr hold)

theorem length_keepFrom_lt_iff :
    (keepFrom cutoff samples).length < samples.length ↔
      ∃ old ∈ samples, old.filledAt < cutoff := by
  rw [keepFrom, List.length_filter_lt_length_iff_exists]
  simp only [decide_eq_true_eq, Instant.le_iff, Instant.lt_iff, Int.not_le]

theorem latest_of_length_le (hroom : samples.length ≤ room) :
    latest room cutoff samples = keepFrom cutoff samples := by
  have hlength := length_keepFrom_le cutoff samples
  rw [latest, List.rtake, Nat.sub_eq_zero_of_le (by omega), List.drop_zero]

/-! ## One addition -/

/-- Whether an addition to a symbol's samples costs a recent one its place: no room is left, the
first sample is recent, and the new one or another one is old. -/
structure Displaces (room : Nat) (cutoff : Instant) (sample : Sample) (samples : List Sample) :
    Prop where
  full : samples.length = room
  recent : ∃ first, samples.head? = some first ∧ cutoff ≤ first.filledAt
  old : ∃ old ∈ samples ++ [sample], old.filledAt < cutoff

theorem extend_cons_of_full {first sample : Sample} (hfull : (first :: samples).length = room) :
    extend room cutoff sample (first :: samples) = keepFrom cutoff (samples ++ [sample]) := by
  have hover : (first :: (samples ++ [sample])).length - room = 1 := by
    rw [← hfull, List.length_cons, List.length_cons, List.length_append, List.length_singleton]
    omega
  rw [extend, List.cons_append, hover]
  rfl

theorem extend_eq_latest_iff {sample : Sample} (hroom : 0 < room)
    (hlength : samples.length ≤ room) :
    extend room cutoff sample samples = latest room cutoff (samples ++ [sample]) ↔
      ¬ Displaces room cutoff sample samples := by
  obtain hspare | hfull := Nat.lt_or_eq_of_le hlength
  · have hlonger : (samples ++ [sample]).length ≤ room := by
      rw [List.length_append, List.length_singleton]
      omega
    rw [latest_of_length_le hlonger, extend, Nat.sub_eq_zero_of_le hlonger, List.drop_zero]
    exact iff_of_true rfl fun hdisplaces => by have := hdisplaces.full; omega
  · cases samples with
    | nil => exact absurd hfull (by simpa using Nat.ne_of_lt hroom)
    | cons first rest =>
      have hrest : (rest ++ [sample]).length = room := by
        rw [← hfull, List.length_append, List.length_singleton, List.length_cons]
      rw [extend_cons_of_full hfull, List.cons_append]
      by_cases hrecent : cutoff ≤ first.filledAt
      · -- the recent samples are one too many exactly if all the others are recent
        have hdisplaces : Displaces room cutoff sample (first :: rest) ↔
            (keepFrom cutoff (rest ++ [sample])).length < (rest ++ [sample]).length := by
          rw [length_keepFrom_lt_iff]
          constructor
          · rintro ⟨-, -, old, hmem, hold⟩
            obtain rfl | hmem := List.mem_cons.mp hmem
            · exact absurd hrecent (Int.not_le.mpr hold)
            · exact ⟨old, hmem, hold⟩
          · rintro ⟨old, hmem, hold⟩
            exact ⟨hfull, ⟨first, rfl, hrecent⟩, old, List.mem_cons_of_mem _ hmem, hold⟩
        have hkept := length_keepFrom_le cutoff (rest ++ [sample])
        rw [hdisplaces, latest, keepFrom_cons_of_le hrecent, List.rtake, List.length_cons]
        obtain hsome | hall := Nat.lt_or_eq_of_le hkept
        · rw [Nat.sub_eq_zero_of_le (by omega), List.drop_zero]
          refine iff_of_false (fun hsame => ?_) (not_not.mpr hsome)
          have := congrArg List.length hsame
          rw [List.length_cons] at this
          omega
        · rw [hall, hrest, Nat.add_sub_cancel_left, List.drop_one, List.tail_cons]
          exact iff_of_true rfl (Nat.lt_irrefl _)
      · rw [latest, keepFrom_cons_of_lt (Int.not_le.mp hrecent), ← latest,
          latest_of_length_le (Nat.le_of_eq hrest)]
        refine iff_of_true rfl fun hdisplaces => ?_
        obtain ⟨_, hhead, hfirst⟩ := hdisplaces.recent
        obtain rfl := Option.some.inj hhead
        exact hrecent hfirst

/-! ## Every history -/

/-- A call that may change a history. -/
inductive Call
  | append (sample : Sample) (now : Instant)
  | prune (now : Instant)

/-- One call of a history with the number of samples that it dropped. -/
abbrev Event := ExposureControl.Event History Call Nat

def perform (history : History) : Call → Except Fault (History × Nat)
  | .append sample now => history.append sample now
  | .prune now => history.pruneExpired now

section

variable {capacity : Nat} {retention : Span} {history next : History} {call : Call} {dropped : Nat}
  {events : List Event}

theorem bounds_perform (hdone : history.perform call = .ok (next, dropped)) :
    next.capacity = history.capacity ∧ next.retention = history.retention := by
  cases call with
  | append | prune =>
    simp only [perform, append, pruneExpired, Fault.bind_eq_ok_iff, Fault.pure_eq_ok_iff,
      Prod.mk.injEq] at hdone
    obtain ⟨_, -, rfl, -⟩ := hdone
    exact ⟨rfl, rfl⟩

theorem length_ofSymbol_perform (hdone : history.perform call = .ok (next, dropped))
    (symbol : String) :
    (next.ofSymbol symbol).length ≤ max history.capacity (history.ofSymbol symbol).length := by
  cases call with
  | append sample now =>
    rw [ofSymbol_append hdone]
    split
    · dsimp only [Intake.take]
      split
      · refine Nat.le_trans (length_keepFrom_le _ _) ?_
        rw [List.length_drop]
        omega
      · exact Nat.le_max_right _ _
    · exact Nat.le_max_right _ _
  | prune now =>
    rw [ofSymbol_pruneExpired hdone]
    dsimp only [Intake.take]
    split
    · exact Nat.le_trans (length_keepFrom_le _ _) (Nat.le_max_right _ _)
    · exact Nat.le_max_right _ _

/-- A history keeps the bounds with which it was set up, and every symbol's samples keep to
them. -/
theorem bounded_of_trace (htrace : Trace perform (.empty capacity retention) events history) :
    history.capacity = max capacity 1 ∧ history.retention = retention ∧
      ∀ symbol, (history.ofSymbol symbol).length ≤ max capacity 1 := by
  induction htrace with
  | start => exact ⟨rfl, rfl, fun _ => Nat.zero_le _⟩
  | event past done ih =>
    obtain ⟨hcapacity, hretention, hlength⟩ := ih
    obtain ⟨hsame, hkept⟩ := bounds_perform done
    refine ⟨hsame.trans hcapacity, hkept.trans hretention, fun symbol => ?_⟩
    have hnext := length_ofSymbol_perform done symbol
    rw [hcapacity] at hnext
    exact Nat.le_trans hnext (Nat.max_le.mpr ⟨Nat.le_refl _, hlength symbol⟩)

end

/-- Whether an addition leaves exactly the latest recent samples of its symbol, and counts the
others. -/
def KeepsLatest (history : History) (sample : Sample) (now cutoff : Instant) : Prop :=
  let added := history.ofSymbol sample.symbol ++ [sample]
  ∃ next dropped, history.append sample now = .ok (next, dropped) ∧
    next.ofSymbol sample.symbol = latest history.capacity cutoff added ∧
    dropped = added.length - (latest history.capacity cutoff added).length

/-- Whatever came before, an addition keeps the latest recent samples of its symbol exactly if it
displaces none of them. -/
theorem keepsLatest_iff_not_displaces {capacity : Nat} {retention : Span}
    {events : List Event} {history : History}
    (htrace : Trace perform (.empty capacity retention) events history) {now cutoff : Instant}
    (hcutoff : now.before retention = .ok cutoff) (sample : Sample) :
    history.KeepsLatest sample now cutoff ↔
      ¬ Displaces (max capacity 1) cutoff sample (history.ofSymbol sample.symbol) := by
  obtain ⟨hcapacity, hretention, hlength⟩ := bounded_of_trace htrace
  obtain ⟨done, happend⟩ : ∃ done, history.append sample now = .ok done := by
    rw [append, hretention, hcutoff]
    exact ⟨_, rfl⟩
  obtain ⟨next, dropped⟩ := done
  have hnext : next.ofSymbol sample.symbol =
      extend (max capacity 1) cutoff sample (history.ofSymbol sample.symbol) := by
    rw [ofSymbol_append happend, if_pos (sameLetters_iff.mpr rfl), hcapacity, hretention,
      Intake.take, hcutoff]
  have hdropped : dropped =
      (history.ofSymbol sample.symbol).length + 1 - (next.ofSymbol sample.symbol).length := by
    rw [hnext]
    rw [append, hretention, hcutoff] at happend
    obtain ⟨-, rfl⟩ := Prod.mk.inj (Except.ok.inj happend)
    rw [hcapacity]
  rw [← extend_eq_latest_iff (Nat.lt_of_lt_of_le Nat.one_pos (Nat.le_max_right _ _))
    (hlength sample.symbol), ← hnext, ← hcapacity]
  constructor
  · rintro ⟨_, _, hsame, hlatest, -⟩
    obtain ⟨rfl, -⟩ := Prod.mk.inj (Except.ok.inj (happend.symm.trans hsame))
    exact hlatest
  · intro hlatest
    refine ⟨next, dropped, happend, hlatest, ?_⟩
    rw [hdropped, hlatest, List.length_append, List.length_singleton]

/-! ## A full history -/

def sampleFilledAt (micros : Int) : Sample where
  symbol := "BTC"
  side := .buy
  orderType := .market
  filledAt := ⟨micros⟩
  slippage := 0.0
  queueMillis := 0
  referencePrice := 100.0
  fillPrice := 100.0
  dailyVolume := none
  averageRange := none
  spread := none

/-- Samples that are kept for a second, with as much room as there are. -/
def filledUp (samples : List Sample) : History where
  capacity := samples.length
  retention := ⟨1000000⟩
  samples := .ofList [("BTC", samples)]

/-- With two recent samples and no room left, a third recent one takes the place of the first; an
old one is dropped again at the cost of a recent one. -/
theorem keepsLatest_iff_of_full_room :
    let history := filledUp [sampleFilledAt 10, sampleFilledAt 20]
    (∃ events, Trace perform (.empty 2 ⟨1000000⟩) events history) ∧
      Instant.before ⟨30⟩ ⟨1000000⟩ = .ok ⟨-999970⟩ ∧
      history.KeepsLatest (sampleFilledAt 30) ⟨30⟩ ⟨-999970⟩ ∧
      ¬ history.KeepsLatest (sampleFilledAt (-2000000)) ⟨30⟩ ⟨-999970⟩ := by
  intro history
  have hfirst : perform (.empty 2 ⟨1000000⟩) (.append (sampleFilledAt 10) ⟨10⟩) =
      .ok (⟨2, ⟨1000000⟩, .ofList [("BTC", [sampleFilledAt 10])]⟩, 0) := rfl
  have hsecond : perform ⟨2, ⟨1000000⟩, .ofList [("BTC", [sampleFilledAt 10])]⟩
      (.append (sampleFilledAt 20) ⟨20⟩) = .ok (history, 0) := rfl
  have htrace := (Trace.start.event hfirst).event hsecond
  have hcutoff : Instant.before ⟨30⟩ ⟨1000000⟩ = .ok ⟨-999970⟩ := rfl
  refine ⟨⟨_, htrace⟩, hcutoff, ?_, ?_⟩
  · refine (keepsLatest_iff_not_displaces htrace hcutoff _).mpr fun hdisplaces => ?_
    obtain ⟨old, hmem, hold⟩ := hdisplaces.old
    have hrecent : ∀ sample ∈ [sampleFilledAt 10, sampleFilledAt 20, sampleFilledAt 30],
        ¬ sample.filledAt < ⟨-999970⟩ := by decide
    exact hrecent old hmem hold
  · rw [keepsLatest_iff_not_displaces htrace hcutoff, not_not]
    exact ⟨rfl, ⟨_, rfl, by decide⟩, _, List.mem_append_right _ (List.mem_singleton_self _),
      by decide⟩

/-- In a history with room for one sample, a sample that is old when it comes in takes the place of
a recent one, and is dropped itself. -/
theorem old_sample_displaces_recent :
    let history := filledUp [sampleFilledAt 0]
    (∃ events, Trace perform (.empty 1 ⟨1000000⟩) events history) ∧
      Instant.before ⟨0⟩ ⟨1000000⟩ = .ok ⟨-1000000⟩ ∧
      history.append (sampleFilledAt (-5000000)) ⟨0⟩ =
        .ok (⟨1, ⟨1000000⟩, .ofList [("BTC", [])]⟩, 2) ∧
      latest 1 ⟨-1000000⟩ [sampleFilledAt 0, sampleFilledAt (-5000000)] = [sampleFilledAt 0] ∧
      ¬ history.KeepsLatest (sampleFilledAt (-5000000)) ⟨0⟩ ⟨-1000000⟩ := by
  intro history
  have hfirst : perform (.empty 1 ⟨1000000⟩) (.append (sampleFilledAt 0) ⟨0⟩) =
      .ok (history, 0) := rfl
  have happend : history.append (sampleFilledAt (-5000000)) ⟨0⟩ =
      .ok (⟨1, ⟨1000000⟩, .ofList [("BTC", [])]⟩, 2) := rfl
  refine ⟨⟨_, Trace.start.event hfirst⟩, rfl, happend, rfl, ?_⟩
  rintro ⟨next, dropped, hsame, -, hdropped⟩
  obtain ⟨-, rfl⟩ := Prod.mk.inj (Except.ok.inj (happend.symm.trans hsame))
  -- one sample is old, and yet both are dropped
  exact absurd hdropped (by decide)

end ExposureControl.Costs.History
