import ExposureControl.Costs.Summary
import ExposureControl.Proofs.ExactScalar
import Mathlib.Algebra.BigOperators.Group.List.Basic
import Mathlib.Data.List.Induction
import Mathlib.Tactic.Ring

/-!
# Means by hour

In exact arithmetic a running mean is the quotient of sum and count.  The values of all hours
together are those of the list, so the overall mean, times the number of values, is the sum of the
hourly means, each times the number of its values.
-/

namespace ExposureControl

namespace Mean

theorem running?_eq_none_iff {α : Type} [Scalar α] {xs : List α} :
    running? xs = none ↔ xs = [] := by
  cases xs <;> simp [running?]

theorem plain?_of_ne_nil {α : Type} [Scalar α] {xs : List α} (hne : xs ≠ []) :
    plain? xs = some (total xs / Scalar.ofCount xs.length) := by
  cases xs with
  | nil => exact absurd rfl hne
  | cons x rest => rfl

open scoped Exact

variable {K : Type} [Field K] [LinearOrder K] [IsStrictOrderedRing K]

theorem correct_mul (mean : K) (index : Nat) (x : K) :
    correct mean (index + 1) x * (index + 1 : ℕ) = mean * index + x := by
  change (mean + (x - mean) / ((index + 1 : ℕ) : K)) * (index + 1 : ℕ) = mean * index + x
  have hcount : ((index + 1 : ℕ) : K) ≠ 0 := Nat.cast_ne_zero.mpr (Nat.succ_ne_zero index)
  rw [add_mul, div_mul_cancel₀ _ hcount, Nat.cast_succ]
  ring

theorem runningFrom_mul (mean : K) (index : Nat) (xs : List K) :
    runningFrom mean index xs * (index + xs.length : ℕ) = mean * index + xs.sum := by
  induction xs generalizing mean index with
  | nil => simp [runningFrom]
  | cons x rest ih =>
    have hlength : index + (x :: rest).length = index + 1 + rest.length := by
      rw [List.length_cons]
      omega
    rw [runningFrom, hlength, ih, correct_mul, List.sum_cons, add_assoc]

theorem mul_length_of_running? {xs : List K} {mean : K} (hmean : running? xs = some mean) :
    mean * xs.length = xs.sum := by
  cases xs with
  | nil => cases hmean
  | cons x rest =>
    obtain rfl := Option.some.inj hmean
    have hall := runningFrom_mul (0 : K) 0 (x :: rest)
    rw [Nat.zero_add, Nat.cast_zero, mul_zero, zero_add] at hall
    rw [Exact.zero_literal, hall]

theorem total_eq_sum (xs : List K) : total xs = xs.sum := by
  rw [total, Exact.zero_literal, List.sum_eq_foldl]

end Mean

namespace Costs

/-! ## Values by hour -/

section

variable {α : Type} {hour : Nat} {value : α} {groups : List (Nat × List α)}
  {rows : List (Nat × α)}

/-- The values of an hour, in the order of the rows. -/
def valuesOf (hour : Nat) (rows : List (Nat × α)) : List α :=
  (rows.filter fun row => row.1 = hour).map Prod.snd

theorem length_valuesOf (hour : Nat) (rows : List (Nat × α)) :
    (valuesOf hour rows).length = rows.countP fun row => row.1 = hour := by
  rw [valuesOf, List.length_map, List.countP_eq_length_filter]

theorem valuesOf_ne_nil_iff : valuesOf hour rows ≠ [] ↔ hour ∈ rows.map Prod.fst := by
  simp [valuesOf]

theorem valuesOf_concat (hour : Nat) (rows : List (Nat × α)) (row : Nat × α) :
    valuesOf hour (rows ++ [row]) =
      if row.1 = hour then valuesOf hour rows ++ [row.2] else valuesOf hour rows := by
  by_cases hrow : row.1 = hour <;> simp [valuesOf, hrow]

theorem byHour_concat (rows : List (Nat × α)) (row : Nat × α) :
    byHour (rows ++ [row]) = groupInto row.1 row.2 (byHour rows) :=
  List.foldl_concat _ _ _ _

theorem keys_groupInto (hour : Nat) (value : α) (groups : List (Nat × List α)) (other : Nat) :
    other ∈ (groupInto hour value groups).map Prod.fst ↔
      other = hour ∨ other ∈ groups.map Prod.fst := by
  induction groups with
  | nil => simp [groupInto]
  | cons group rest ih =>
    obtain ⟨h, values⟩ := group
    rw [groupInto]
    split
    · simp
    · split
      · next heq => simp [heq]
      · simp only [List.map_cons, List.mem_cons, ih]
        tauto

theorem ascending_groupInto (hascending : (groups.map Prod.fst).Pairwise (· < ·)) :
    ((groupInto hour value groups).map Prod.fst).Pairwise (· < ·) := by
  induction groups with
  | nil => simp [groupInto]
  | cons group rest ih =>
    obtain ⟨h, values⟩ := group
    rw [List.map_cons, List.pairwise_cons] at hascending
    obtain ⟨hfirst, hrest⟩ := hascending
    rw [groupInto]
    split
    · next hbefore =>
      refine List.Pairwise.cons (fun other hmem => ?_) (List.Pairwise.cons hfirst hrest)
      obtain rfl | hmem := List.mem_cons.mp hmem
      · exact hbefore
      · exact Nat.lt_trans hbefore (hfirst other hmem)
    · next hnot =>
      split
      · exact List.Pairwise.cons hfirst hrest
      · next hne =>
        refine List.Pairwise.cons (fun other hmem => ?_) (ih hrest)
        obtain rfl | hmem := (keys_groupInto hour value rest other).mp hmem
        · exact Nat.lt_of_le_of_ne (Nat.not_lt.mp hnot) hne
        · exact hfirst other hmem

theorem lookup_groupInto (hascending : (groups.map Prod.fst).Pairwise (· < ·)) (other : Nat) :
    Table.lookup other (groupInto hour value groups) =
      if hour = other then some ((Table.lookup hour groups).getD [] ++ [value])
      else Table.lookup other groups := by
  induction groups with
  | nil => simp [groupInto, Table.lookup]
  | cons group rest ih =>
    obtain ⟨h, values⟩ := group
    obtain ⟨hfirst, hrest⟩ := List.pairwise_cons.mp hascending
    rw [groupInto]
    split
    · next hbefore =>
      -- the hour comes before all others, so it has no list yet
      have hnew : Table.lookup hour ((h, values) :: rest) = none := by
        refine Table.lookup_eq_none_of_notMem fun hmem => ?_
        obtain rfl | hmem := List.mem_cons.mp hmem
        · exact Nat.lt_irrefl _ hbefore
        · exact Nat.lt_asymm hbefore (hfirst hour hmem)
      rw [hnew, Table.lookup]
      rfl
    · split
      · next hsame =>
        subst hsame
        by_cases hother : h = other <;> simp [Table.lookup, hother]
      · next hne =>
        rw [Table.lookup, Table.lookup, Table.lookup, if_neg hne, ih hrest]
        by_cases hother : hour = other
        · rw [if_pos hother, if_neg (hother ▸ hne), if_pos hother]
        · rw [if_neg hother, if_neg hother]

theorem byHour_spec (rows : List (Nat × α)) :
    ((byHour rows).map Prod.fst).Pairwise (· < ·) ∧
      ∀ hour, Table.lookup hour (byHour rows) =
        if valuesOf hour rows = [] then none else some (valuesOf hour rows) := by
  induction rows using List.reverseRecOn with
  | nil => exact ⟨List.Pairwise.nil, fun _ => rfl⟩
  | append_singleton rows row ih =>
    obtain ⟨hascending, hlookup⟩ := ih
    rw [byHour_concat]
    refine ⟨ascending_groupInto hascending, fun hour => ?_⟩
    rw [lookup_groupInto hascending, hlookup row.1, hlookup hour, valuesOf_concat]
    by_cases hrow : row.1 = hour
    · subst hrow
      by_cases hempty : valuesOf row.1 rows = [] <;> simp [hempty]
    · rw [if_neg hrow, if_neg hrow]

theorem mem_byHour_iff (rows : List (Nat × α)) (hour : Nat) (values : List α) :
    (hour, values) ∈ byHour rows ↔ values ≠ [] ∧ values = valuesOf hour rows := by
  obtain ⟨hascending, hlookup⟩ := byHour_spec rows
  have hdistinct : ((byHour rows).map Prod.fst).Nodup := hascending.imp Nat.ne_of_lt
  have hmem := Table.mem_entries_iff ⟨byHour rows, hdistinct⟩ hour values
  rw [Table.find?, hlookup] at hmem
  rw [hmem]
  by_cases hempty : valuesOf hour rows = []
  · simp only [hempty, if_true, reduceCtorEq, false_iff]
    exact fun h => h.1 h.2
  · simp only [hempty, if_false, Option.some.injEq]
    exact ⟨fun h => ⟨h ▸ hempty, h.symm⟩, fun h => h.2.symm⟩

end

/-! ## Means by hour -/

/-- Every hour that occurs has a mean. -/
theorem hourlyMeans_eq_map {α : Type} [Scalar α] (rows : List (Nat × α)) :
    hourlyMeans rows = (byHour rows).map fun group =>
      (group.1, Mean.total group.2 / Scalar.ofCount group.2.length) := by
  rw [hourlyMeans, ← List.filterMap_eq_map]
  refine List.filterMap_congr fun group hmem => ?_
  have hvalues := ((mem_byHour_iff rows group.1 group.2).mp hmem).1
  rw [Mean.plain?_of_ne_nil hvalues]
  rfl

theorem ascending_hourlyMeans {α : Type} [Scalar α] (rows : List (Nat × α)) :
    ((hourlyMeans rows).map Prod.fst).Pairwise (· < ·) := by
  have hhours := (byHour_spec rows).1
  rw [hourlyMeans_eq_map, List.map_map]
  exact hhours

theorem mem_hours_hourlyMeans_iff {α : Type} [Scalar α] (rows : List (Nat × α)) (hour : Nat) :
    hour ∈ (hourlyMeans rows).map Prod.fst ↔ hour ∈ rows.map Prod.fst := by
  rw [hourlyMeans_eq_map, List.map_map, ← valuesOf_ne_nil_iff]
  constructor
  · intro hmem
    obtain ⟨group, hgroup, rfl⟩ := List.mem_map.mp hmem
    obtain ⟨hne, hvalues⟩ := (mem_byHour_iff rows group.1 group.2).mp hgroup
    exact hvalues ▸ hne
  · intro hne
    exact List.mem_map.mpr ⟨(hour, valuesOf hour rows), (mem_byHour_iff rows _ _).mpr ⟨hne, rfl⟩,
      rfl⟩

theorem hours_hourlyMeans_congr {α β : Type} [Scalar α] [Scalar β] {rows : List (Nat × α)}
    {others : List (Nat × β)} (hhours : rows.map Prod.fst = others.map Prod.fst) :
    (hourlyMeans rows).map Prod.fst = (hourlyMeans others).map Prod.fst := by
  have hrows := ascending_hourlyMeans rows
  have hothers := ascending_hourlyMeans others
  have hperm := (List.perm_ext_iff_of_nodup (hrows.imp Nat.ne_of_lt)
    (hothers.imp Nat.ne_of_lt)).mpr fun hour => by
      rw [mem_hours_hourlyMeans_iff, mem_hours_hourlyMeans_iff, hhours]
  exact hperm.eq_of_pairwise (fun _ _ _ _ hlt hgt => absurd hgt (Nat.lt_asymm hlt)) hrows hothers

section

variable {M : Type} [AddCommMonoid M]

theorem sum_groupInto (hour : Nat) (value : M) (groups : List (Nat × List M)) :
    ((groupInto hour value groups).map fun group => group.2.sum).sum =
      (groups.map fun group => group.2.sum).sum + value := by
  induction groups with
  | nil => simp [groupInto]
  | cons group rest ih =>
    obtain ⟨h, values⟩ := group
    rw [groupInto]
    split
    · simp [add_comm]
    · split
      · simp only [List.map_cons, List.sum_cons, List.sum_append, List.sum_nil, add_zero]
        rw [add_right_comm]
      · rw [List.map_cons, List.sum_cons, ih, List.map_cons, List.sum_cons, add_assoc]

theorem sum_byHour (rows : List (Nat × M)) :
    ((byHour rows).map fun group => group.2.sum).sum = (rows.map Prod.snd).sum := by
  induction rows using List.reverseRecOn with
  | nil => rfl
  | append_singleton rows row ih =>
    rw [byHour_concat, sum_groupInto, ih, List.map_append, List.sum_append, List.map_singleton,
      List.sum_singleton]

end

open scoped Exact in
/-- Hourly means, each times the number of values of its hour, add up to the sum of all values. -/
theorem sum_hourlyMeans {K : Type} [Field K] [LinearOrder K] [IsStrictOrderedRing K]
    (rows : List (Nat × K)) :
    ((hourlyMeans rows).map fun mean =>
        mean.2 * ((rows.countP fun row => row.1 = mean.1 : ℕ) : K)).sum =
      (rows.map Prod.snd).sum := by
  rw [hourlyMeans_eq_map, List.map_map, ← sum_byHour]
  refine congrArg List.sum (List.map_congr_left fun group hmem => ?_)
  obtain ⟨hne, hvalues⟩ := (mem_byHour_iff rows group.1 group.2).mp hmem
  have hlength : (group.2.length : K) ≠ 0 :=
    Nat.cast_ne_zero.mpr (Nat.ne_of_gt (List.length_pos_iff.mpr hne))
  dsimp only [Function.comp_apply]
  rw [← length_valuesOf, ← hvalues, Mean.total_eq_sum]
  exact div_mul_cancel₀ _ hlength

end Costs

end ExposureControl
