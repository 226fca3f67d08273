import ExposureControl.Proofs.Bookings
import ExposureControl.Proofs.Counting
import ExposureControl.Proofs.Filing
import Mathlib.Data.List.Find

/-!
# Pruning, store by store

What is dropped from each store of the governor up to a time, and how it is counted.  Every store
keeps what is left in its order, and to prune it again up to the same time changes nothing.  Of
pulls, two prunes drop what the later cutoff alone would drop.
-/

namespace ExposureControl

namespace Instant

variable (s t : Instant)

def latest : Instant := if s ≤ t then t else s

theorem lt_latest_iff (time : Instant) : time < latest s t ↔ time < s ∨ time < t := by
  rw [latest]
  split <;> simp only [lt_iff, le_iff] at * <;> omega

theorem latest_self : latest s s = s := if_pos (Int.le_refl s.micros)

end Instant

namespace Table

variable {κ ν : Type}

theorem values_mapValues {ω : Type} (f : κ → ν → ω) (table : Table κ ν) :
    (table.mapValues f).values = table.entries.map fun entry => f entry.1 entry.2 := by
  simp [values, mapValues]

def filterLists (keep : ν → Bool) (table : Table κ (List ν)) : Table κ (List ν) :=
  table.mapValues fun _ => List.filter keep

theorem keys_filterLists (keep : ν → Bool) (table : Table κ (List ν)) :
    (table.filterLists keep).keys = table.keys := by
  simp [keys, filterLists, mapValues]

theorem values_filterLists (keep : ν → Bool) (table : Table κ (List ν)) :
    (table.filterLists keep).values.flatten = table.values.flatten.filter keep := by
  rw [filterLists, values_mapValues, values, List.filter_flatten, List.map_map]
  rfl

theorem filterLists_filterLists_of_and {first second both : ν → Bool}
    (hboth : ∀ value, both value = (first value && second value)) (table : Table κ (List ν)) :
    (table.filterLists first).filterLists second = table.filterLists both := by
  have hfilter : both = fun value => second value && first value := by
    funext value
    rw [hboth, Bool.and_comm]
  simp [filterLists, mapValues, hfilter]

theorem filter_filter_of_and {first second both : κ → ν → Bool}
    (hboth : ∀ key value, both key value = (first key value && second key value))
    (table : Table κ ν) : (table.filter first).filter second = table.filter both := by
  simp [filter, hboth, Bool.and_comm]

theorem filterLists_filterLists (keep : ν → Bool) (table : Table κ (List ν)) :
    (table.filterLists keep).filterLists keep = table.filterLists keep :=
  filterLists_filterLists_of_and (fun _ => (Bool.and_self _).symm) table

theorem filter_filter (keep : κ → ν → Bool) (table : Table κ ν) :
    (table.filter keep).filter keep = table.filter keep :=
  filter_filter_of_and (fun _ _ => (Bool.and_self _).symm) table

variable [DecidableEq κ]

theorem find?_filterLists (keep : ν → Bool) (table : Table κ (List ν)) (key : κ) :
    ((table.filterLists keep).find? key).getD [] = ((table.find? key).getD []).filter keep := by
  rw [filterLists, find?_mapValues]
  cases table.find? key <;> rfl

end Table

/-! ## Costs -/

namespace Costs

/-- A desk without the samples before one time and the orders submitted before another, with the
number of both. -/
def Desk.pruneFrom (samplesFrom pendingFrom : Instant) (desk : Desk) : Desk × Nat :=
  let pending := keepPending pendingFrom desk.pending
  ({ pending
     history := { desk.history with
      samples := desk.history.samples.filterLists fun sample =>
        decide (samplesFrom ≤ sample.filledAt) } },
    (desk.history.samples.values.flatten.countP fun sample =>
      decide (sample.filledAt < samplesFrom)) + (desk.pending.size - pending.size))

theorem Desk.pruneExpired_of_cutoffs {settings : Settings.Costs} {now samplesFrom : Instant}
    {pendingFrom : Instant} {desk : Desk}
    (hsamples : now.before desk.history.retention = .ok samplesFrom)
    (hpending : Span.minutes settings.pendingMinutes >>= now.before = .ok pendingFrom) :
    desk.pruneExpired settings now = .ok (desk.pruneFrom samplesFrom pendingFrom) := by
  obtain ⟨span, hspan, hbefore⟩ := Fault.bind_eq_ok_iff.mp hpending
  have hhistory : desk.history.pruneExpired now = .ok
      ((desk.pruneFrom samplesFrom pendingFrom).1.history,
        desk.history.samples.values.flatten.countP fun sample =>
          decide (sample.filledAt < samplesFrom)) :=
    Fault.bind_eq_ok_iff.mpr ⟨samplesFrom, hsamples, rfl⟩
  exact Fault.bind_eq_ok_iff.mpr ⟨_, hhistory, Fault.bind_eq_ok_iff.mpr ⟨span, hspan,
    Fault.bind_eq_ok_iff.mpr ⟨pendingFrom, hbefore, rfl⟩⟩⟩

theorem Desk.pruneFrom_pruneFrom (samplesFrom pendingFrom : Instant) (desk : Desk) :
    (desk.pruneFrom samplesFrom pendingFrom).1.pruneFrom samplesFrom pendingFrom =
      ((desk.pruneFrom samplesFrom pendingFrom).1, 0) := by
  have hnone : ((desk.history.samples.values.flatten.filter fun sample =>
      decide (samplesFrom ≤ sample.filledAt)).countP fun sample =>
        decide (sample.filledAt < samplesFrom)) = 0 := by
    simp only [← Instant.not_decide_le]
    exact countP_not_filter _ _
  simp only [pruneFrom, keepPending, Table.filter_filter, Table.filterLists_filterLists,
    Table.values_filterLists, hnone, Nat.sub_self, Nat.add_zero]

theorem size_keepPending (cutoff : Instant) (pending : Table String PendingOrder) :
    pending.size - (Desk.keepPending cutoff pending).size =
      pending.values.countP fun order => decide (order.submittedAt < cutoff) := by
  rw [Table.size, Table.size, Desk.keepPending, Table.filter, length_sub_length_filter,
    Table.values, List.countP_map]
  exact List.countP_congr fun entry _ => by rw [Instant.not_decide_le]; rfl

end Costs

/-! ## Windows -/

namespace Drift

theorem Window.pruneBefore_pruneBefore (cutoff : Instant) (window : Window) :
    (window.pruneBefore cutoff).1.pruneBefore cutoff = ((window.pruneBefore cutoff).1, 0) := by
  refine pruneBefore_eq_self fun trade htrade => ?_
  rw [trades_pruneBefore] at htrade
  exact of_decide_eq_true (List.mem_filter.mp htrade).2

theorem Monitor.pruneBefore_pruneBefore (cutoff : Instant) (monitor : Monitor) :
    (monitor.pruneBefore cutoff).1.pruneBefore cutoff = ((monitor.pruneBefore cutoff).1, 0) := by
  simp only [pruneBefore, Window.pruneBefore_pruneBefore]

theorem Monitor.pruneExpired_of_cutoff {settings : Settings.Drift} {now cutoff : Instant}
    {monitor : Monitor} (hcutoff : Span.days settings.retentionDays >>= now.before = .ok cutoff) :
    monitor.pruneExpired settings now = .ok (monitor.pruneBefore cutoff) := by
  obtain ⟨span, hspan, hbefore⟩ := Fault.bind_eq_ok_iff.mp hcutoff
  exact Fault.bind_eq_ok_iff.mpr ⟨span, hspan, Fault.bind_eq_ok_iff.mpr ⟨cutoff, hbefore, rfl⟩⟩

end Drift

/-! ## Positions -/

namespace Shadow.Book

theorem not_outlives (cutoff : Instant) (position : Position) :
    (!outlives cutoff position) =
      (!position.isOpen && position.closedAt.any fun closedAt => decide (closedAt < cutoff)) := by
  rw [outlives, Bool.not_or]
  cases position.closedAt with
  | none => rfl
  | some closedAt => rw [Option.all_some, Option.any_some, Instant.not_decide_le]

theorem symbols_pruneBefore (cutoff : Instant) (book : Book) :
    (book.pruneBefore cutoff).1.symbols = book.symbols := by
  rw [symbols, symbols]
  exact congrArg (fun keys => keys.mergeSort fun a b => a ≤ b)
    (Table.keys_filterLists (outlives cutoff) book.positions)

theorem pruneBefore_pruneBefore (cutoff : Instant) (book : Book) :
    (book.pruneBefore cutoff).1.pruneBefore cutoff = ((book.pruneBefore cutoff).1, 0) := by
  have hpositions := Table.filterLists_filterLists (outlives cutoff) book.positions
  have hvalues := Table.values_filterLists (outlives cutoff) book.positions
  refine Prod.ext (congrArg Book.mk hpositions) ?_
  change ((book.positions.filterLists (outlives cutoff)).values.flatten.countP fun position =>
    !outlives cutoff position) = 0
  rw [hvalues]
  exact countP_not_filter _ _

end Shadow.Book

theorem Shadow.Engine.pruneExpired_of_cutoff {settings : Settings.Shadow} {now cutoff : Instant}
    {engine : Engine}
    (hcutoff : Span.days settings.closedRetentionDays >>= now.before = .ok cutoff) :
    engine.pruneExpired settings now = .ok
      ({ engine with book := (engine.book.pruneBefore cutoff).1 },
        (engine.book.pruneBefore cutoff).2) := by
  obtain ⟨span, hspan, hbefore⟩ := Fault.bind_eq_ok_iff.mp hcutoff
  exact Fault.bind_eq_ok_iff.mpr ⟨span, hspan, Fault.bind_eq_ok_iff.mpr ⟨cutoff, hbefore, rfl⟩⟩

/-! ## Pulls -/

namespace Registry

/-- Whether no two pulls on record share a decision. -/
def DistinctDecisions (registry : Registry) : Prop :=
  (registry.histories.values.flatten.map Pull.decision).Nodup

instance (registry : Registry) : Decidable registry.DistinctDecisions :=
  inferInstanceAs (Decidable (List.Nodup _))

theorem DistinctDecisions.eq {registry : Registry} (hdistinct : registry.DistinctDecisions)
    {symbol other : String} {pull second : Pull} (hpull : pull ∈ registry.historyOf symbol)
    (hsecond : second ∈ registry.historyOf other) (hdecision : second.decision = pull.decision) :
    second = pull :=
  List.inj_on_of_nodup_map hdistinct ((registry.mem_histories_iff second).mpr ⟨other, hsecond⟩)
    ((registry.mem_histories_iff pull).mpr ⟨symbol, hpull⟩) hdecision

theorem DistinctDecisions.of_filed {registry : Registry} (hfiled : registry.Filed) :
    registry.DistinctDecisions := by
  have hmember : ∀ entry ∈ registry.histories.entries, registry.historyOf entry.1 = entry.2 := by
    intro entry hentry
    rw [historyOf, (registry.histories.mem_entries_iff entry.1 entry.2).mp hentry,
      Option.getD_some]
  rw [DistinctDecisions, List.map_flatten, List.nodup_flatten, Table.values, List.map_map]
  constructor
  · intro decisions hdecisions
    obtain ⟨entry, hentry, rfl⟩ := List.mem_map.mp hdecisions
    have hnodup := hfiled.nodup entry.1
    rwa [hmember entry hentry] at hnodup
  · have hkeys : registry.histories.entries.Pairwise fun first second => first.1 ≠ second.1 :=
      List.pairwise_map.mp registry.histories.distinct
    refine List.pairwise_map.mpr (hkeys.imp_of_mem fun {first second} hfirst hsecond hne => ?_)
    intro decision hone htwo
    obtain ⟨pull, hpull, rfl⟩ := List.mem_map.mp hone
    obtain ⟨other, hother, hdecision⟩ := List.mem_map.mp htwo
    rw [← hmember first hfirst] at hpull
    rw [← hmember second hsecond] at hother
    exact hne (hfiled.unique hpull hother hdecision).1.symm

theorem locate?_prunePulls {registry : Registry} (hdistinct : registry.DistinctDecisions)
    (cutoff : Instant) (decision : DecisionId) :
    (registry.prunePulls cutoff).1.locate? decision =
      (registry.locate? decision).filter fun found => decide (cutoff ≤ found.2.loggedAt) := by
  ext ⟨symbol, pull⟩
  simp only [Option.filter_eq_some_iff, locate?_eq_some_iff, find?_decisions_prunePulls,
    historyOf_prunePulls]
  -- where no pull of the decision is dropped, looking it up in a pruned history makes no difference
  have hsame : (∀ second ∈ registry.historyOf symbol,
        second.loggedAt < cutoff → second.decision ≠ decision) →
      (((registry.historyOf symbol).filter fun pull => !decide (pull.loggedAt < cutoff)).find?
          fun pull => decide (pull.decision = decision)) =
        (registry.historyOf symbol).find? fun pull => decide (pull.decision = decision) := by
    intro hkept
    rw [List.find?_filter]
    refine List.find?_congr fun second hsecond => ?_
    by_cases hexpired : second.loggedAt < cutoff
    · simp [hexpired, hkept second hsecond hexpired]
    · simp [hexpired]
  constructor
  · rintro ⟨⟨hfiled, hkept⟩, hfound⟩
    have hmember := List.mem_of_find?_eq_some hfound
    refine ⟨⟨hfiled, (hsame (hkept symbol)).symm.trans hfound⟩, ?_⟩
    simpa [Instant.le_iff, Instant.lt_iff] using (List.mem_filter.mp hmember).2
  · rintro ⟨⟨hfiled, hfound⟩, hfresh⟩
    have hpull := List.mem_of_find?_eq_some hfound
    have hdecision : pull.decision = decision := by simpa using List.find?_some hfound
    have hkept : ∀ other, ∀ second ∈ registry.historyOf other, second.loggedAt < cutoff →
        second.decision ≠ decision := by
      intro other second hsecond hexpired heq
      obtain rfl := hdistinct.eq hpull hsecond (heq.trans hdecision.symm)
      simp only [Instant.le_iff, Instant.lt_iff, decide_eq_true_eq] at hfresh hexpired
      omega
    exact ⟨⟨hfiled, hkept⟩, (hsame (hkept symbol)).trans hfound⟩

/-- Histories keep the pulls logged at the cutoff or later. -/
theorem prunePulls_eq (cutoff : Instant) (registry : Registry) :
    registry.prunePulls cutoff =
      ({ registry with
          histories := registry.histories.filterLists fun pull => decide (cutoff ≤ pull.loggedAt)
          decisions := registry.decisions.filter fun decision _ =>
            !((registry.histories.values.flatten.filter fun pull =>
              decide (pull.loggedAt < cutoff)).map Pull.decision).contains decision },
        registry.histories.values.flatten.countP fun pull => decide (pull.loggedAt < cutoff)) := by
  simp only [prunePulls, Instant.not_decide_lt, List.length_map, List.countP_eq_length_filter]
  rfl

def pullsStored (registry : Registry) : Nat := registry.histories.values.flatten.length

theorem pullsStored_prunePulls (registry : Registry) (cutoff : Instant) :
    (registry.prunePulls cutoff).1.pullsStored + (registry.prunePulls cutoff).2 =
      registry.pullsStored := by
  let keep (pull : Pull) : Bool := decide (cutoff ≤ pull.loggedAt)
  have hdropped := length_sub_length_filter keep registry.histories.values.flatten
  simp only [keep, Instant.not_decide_le] at hdropped
  rw [prunePulls_eq, pullsStored, Table.values_filterLists, pullsStored, ← hdropped]
  exact Nat.add_sub_cancel' (List.length_filter_le _ _)

/-- The later cutoff expires what either of two prunes in a row finds expired. -/
theorem exists_expired_latest_iff (pulls : List Pull) (first second : Instant)
    (decision : DecisionId) :
    (∃ pull, (pull ∈ pulls ∧ pull.loggedAt < Instant.latest first second) ∧
        pull.decision = decision) ↔
      (∃ pull, (pull ∈ pulls ∧ pull.loggedAt < first) ∧ pull.decision = decision) ∨
        ∃ pull, ((pull ∈ pulls ∧ first ≤ pull.loggedAt) ∧ pull.loggedAt < second) ∧
          pull.decision = decision := by
  simp only [Instant.lt_latest_iff]
  constructor
  · rintro ⟨pull, ⟨hpull, hfirst | hsecond⟩, hdecision⟩
    · exact .inl ⟨pull, ⟨hpull, hfirst⟩, hdecision⟩
    · -- a pull that the second prune would drop may be gone already
      by_cases hgone : pull.loggedAt < first
      · exact .inl ⟨pull, ⟨hpull, hgone⟩, hdecision⟩
      · exact .inr ⟨pull, ⟨⟨hpull, Int.not_lt.mp hgone⟩, hsecond⟩, hdecision⟩
  · rintro (⟨pull, ⟨hpull, hfirst⟩, hdecision⟩ | ⟨pull, ⟨⟨hpull, -⟩, hsecond⟩, hdecision⟩)
    · exact ⟨pull, ⟨hpull, .inl hfirst⟩, hdecision⟩
    · exact ⟨pull, ⟨hpull, .inr hsecond⟩, hdecision⟩

theorem prunePulls_prunePulls_latest (registry : Registry) (first second : Instant) :
    ((registry.prunePulls first).1.prunePulls second).1 =
      (registry.prunePulls (.latest first second)).1 := by
  have hexpired : ∀ pull : Pull, decide (pull.loggedAt < Instant.latest first second) =
      (decide (pull.loggedAt < first) || decide (pull.loggedAt < second)) := by
    intro pull
    rw [← Bool.decide_or]
    exact decide_eq_decide.mpr (Instant.lt_latest_iff first second _)
  have hkept : ∀ pull : Pull, decide (Instant.latest first second ≤ pull.loggedAt) =
      (decide (first ≤ pull.loggedAt) && decide (second ≤ pull.loggedAt)) := by
    intro pull
    simp only [← Instant.not_decide_lt, hexpired, Bool.not_or]
  simp only [prunePulls_eq, Table.values_filterLists, Registry.mk.injEq, true_and, and_true]
  refine ⟨Table.filterLists_filterLists_of_and hkept _, Table.filter_filter_of_and ?_ _⟩
  intro decision _
  rw [← Bool.not_or]
  congr 1
  rw [Bool.eq_iff_iff]
  simp only [Bool.or_eq_true, List.contains_iff_mem, List.mem_map, List.mem_filter,
    decide_eq_true_eq]
  exact exists_expired_latest_iff _ first second decision

theorem count_prunePulls_prunePulls (registry : Registry) (first second : Instant) :
    (registry.prunePulls first).2 + ((registry.prunePulls first).1.prunePulls second).2 =
      (registry.prunePulls (.latest first second)).2 := by
  have hfirst := pullsStored_prunePulls registry first
  have hsecond := pullsStored_prunePulls (registry.prunePulls first).1 second
  have hlatest := pullsStored_prunePulls registry (.latest first second)
  rw [prunePulls_prunePulls_latest] at hsecond
  omega

theorem prunePulls_prunePulls (cutoff : Instant) (registry : Registry) :
    (registry.prunePulls cutoff).1.prunePulls cutoff = ((registry.prunePulls cutoff).1, 0) := by
  have hpulls := prunePulls_prunePulls_latest registry cutoff cutoff
  have hcount := count_prunePulls_prunePulls registry cutoff cutoff
  rw [Instant.latest_self] at hpulls hcount
  exact Prod.ext hpulls (Nat.add_eq_left.mp hcount)

end Registry

end ExposureControl
