import ExposureControl.Proofs.ExactScalar
import ExposureControl.Proofs.WindowContents
import Mathlib.Data.Finset.Lattice.Fold
import Mathlib.Tactic.Linarith
import Mathlib.Tactic.Positivity

/-!
# Drawdowns and the peaks they fall from

A drawdown is a fall of the cumulative result from its peak so far, in percent of that peak.  The
summary of a window tracks falls by their amount and divides the deepest one by the last peak of
all.  Fall and peak then need not belong together: a later high makes an earlier drawdown look
smaller, and a loss before the first profit is measured by a peak that came after it.  Here both
readings stand side by side, in exact arithmetic, and it is said where they differ.
-/

namespace ExposureControl.Drift.Curve

open scoped Exact

variable {K : Type} [LinearOrder K]

/-! ## The largest value so far -/

/-- The largest value of a quantity after so many trades or fewer. -/
def largestUpTo (quantity : ℕ → K) (count : ℕ) : K :=
  (Finset.range (count + 1)).sup' Finset.nonempty_range_add_one quantity

section

variable {quantity other : ℕ → K} {count index : ℕ} {bound : K}

theorem le_largestUpTo (hindex : index ≤ count) : quantity index ≤ largestUpTo quantity count :=
  Finset.le_sup' quantity (Finset.mem_range_succ_iff.mpr hindex)

theorem exists_eq_largestUpTo (quantity : ℕ → K) (count : ℕ) :
    ∃ index ≤ count, largestUpTo quantity count = quantity index := by
  obtain ⟨index, hindex, heq⟩ :=
    Finset.exists_mem_eq_sup' (@Finset.nonempty_range_add_one count) quantity
  exact ⟨index, Finset.mem_range_succ_iff.mp hindex, heq⟩

theorem lt_largestUpTo_iff :
    bound < largestUpTo quantity count ↔ ∃ index ≤ count, bound < quantity index := by
  simp only [largestUpTo, Finset.lt_sup'_iff, Finset.mem_range_succ_iff]

theorem largestUpTo_lt_iff :
    largestUpTo quantity count < bound ↔ ∀ index ≤ count, quantity index < bound := by
  simp only [largestUpTo, Finset.sup'_lt_iff, Finset.mem_range_succ_iff]

theorem largestUpTo_mono (hindex : index ≤ count) :
    largestUpTo quantity index ≤ largestUpTo quantity count :=
  Finset.sup'_mono quantity (Finset.range_mono (Nat.succ_le_succ hindex)) _

theorem largestUpTo_congr (hsame : ∀ index ≤ count, quantity index = other index) :
    largestUpTo quantity count = largestUpTo other count :=
  Finset.sup'_congr Finset.nonempty_range_add_one rfl fun index hindex =>
    hsame index (Finset.mem_range_succ_iff.mp hindex)

theorem largestUpTo_zero : largestUpTo quantity 0 = quantity 0 := Finset.sup'_singleton quantity

theorem largestUpTo_succ :
    largestUpTo quantity (count + 1) =
      max (largestUpTo quantity count) (quantity (count + 1)) := by
  have hrange : Finset.range (count + 1 + 1) = insert (count + 1) (Finset.range (count + 1)) :=
    Finset.range_add_one
  rw [largestUpTo, Finset.sup'_congr _ hrange fun _ _ => rfl,
    Finset.sup'_insert Finset.nonempty_range_add_one, max_comm]
  rfl

end

/-! ## Peaks, falls and shares -/

variable [Field K]

def equityAfter (results : List K) (count : ℕ) : K := (results.take count).sum

def peakAfter (results : List K) (count : ℕ) : K := largestUpTo (equityAfter results) count

def fallAfter (results : List K) (count : ℕ) : K :=
  peakAfter results count - equityAfter results count

/-- The fall in percent of the peak that it is from, zero while that peak is not positive. -/
def shareAfter (results : List K) (count : ℕ) : K :=
  if 0 < peakAfter results count then fallAfter results count / peakAfter results count * 100 else 0

/-- The peak of all results. -/
def lastPeak (results : List K) : K := peakAfter results results.length

/-- The largest fall by amount. -/
def deepestFall (results : List K) : K := largestUpTo (fallAfter results) results.length

/-- The largest fall by percentage. -/
def deepestShare (results : List K) : K := largestUpTo (shareAfter results) results.length

section

variable {results : List K} {next : K} {count : ℕ}

omit [LinearOrder K] in
theorem equityAfter_length (results : List K) :
    equityAfter results results.length = results.sum := by
  rw [equityAfter, List.take_length]

omit [LinearOrder K] in
theorem equityAfter_concat (hcount : count ≤ results.length) :
    equityAfter (results ++ [next]) count = equityAfter results count := by
  rw [equityAfter, List.take_append_of_le_length hcount, equityAfter]

theorem peakAfter_concat (hcount : count ≤ results.length) :
    peakAfter (results ++ [next]) count = peakAfter results count :=
  largestUpTo_congr fun _ hindex => equityAfter_concat (hindex.trans hcount)

theorem fallAfter_concat (hcount : count ≤ results.length) :
    fallAfter (results ++ [next]) count = fallAfter results count := by
  rw [fallAfter, peakAfter_concat hcount, equityAfter_concat hcount, fallAfter]

theorem shareAfter_of_pos (hpeak : 0 < peakAfter results count) :
    shareAfter results count = fallAfter results count / peakAfter results count * 100 :=
  if_pos hpeak

theorem shareAfter_of_nonpos (hpeak : ¬0 < peakAfter results count) :
    shareAfter results count = 0 :=
  if_neg hpeak

theorem shareAfter_concat (hcount : count ≤ results.length) :
    shareAfter (results ++ [next]) count = shareAfter results count := by
  rw [shareAfter, peakAfter_concat hcount, fallAfter_concat hcount, shareAfter]

omit [Field K] in
/-- Of a quantity that later trades leave as it was, one trade more adds one value. -/
theorem largestUpTo_concat {quantity : List K → ℕ → K}
    (hkept : ∀ count ≤ results.length,
      quantity (results ++ [next]) count = quantity results count) :
    largestUpTo (quantity (results ++ [next])) (results ++ [next]).length =
      max (largestUpTo (quantity results) results.length)
        (quantity (results ++ [next]) (results.length + 1)) := by
  rw [List.length_append, List.length_singleton, largestUpTo_succ, largestUpTo_congr hkept]

omit [LinearOrder K] in
theorem equityAfter_succ_length (results : List K) (next : K) :
    equityAfter (results ++ [next]) (results.length + 1) = results.sum + next := by
  have hlength : (results ++ [next]).length = results.length + 1 := List.length_append
  rw [← hlength, equityAfter_length, List.sum_append, List.sum_singleton]

theorem lastPeak_concat (results : List K) (next : K) :
    lastPeak (results ++ [next]) = max (lastPeak results) (results.sum + next) := by
  rw [lastPeak, peakAfter, largestUpTo_concat fun _ => equityAfter_concat,
    equityAfter_succ_length]
  rfl

theorem deepestFall_concat (results : List K) (next : K) :
    deepestFall (results ++ [next]) =
      max (deepestFall results) (lastPeak (results ++ [next]) - (results.sum + next)) := by
  rw [deepestFall, largestUpTo_concat fun _ => fallAfter_concat, fallAfter,
    equityAfter_succ_length, lastPeak, List.length_append]
  rfl

/-- A trade more never makes the largest percentage smaller. -/
theorem deepestShare_le_concat (results : List K) (next : K) :
    deepestShare results ≤ deepestShare (results ++ [next]) := by
  rw [deepestShare, deepestShare, largestUpTo_concat fun _ => shareAfter_concat]
  exact le_max_left _ _

theorem peakAfter_le_lastPeak (hcount : count ≤ results.length) :
    peakAfter results count ≤ lastPeak results :=
  largestUpTo_mono hcount

theorem deepestShare_of_nonpos (hpeak : ¬0 < lastPeak results) : deepestShare results = 0 := by
  obtain ⟨count, hcount, heq⟩ := exists_eq_largestUpTo (shareAfter results) results.length
  rw [deepestShare, heq, shareAfter_of_nonpos]
  exact fun hearlier => hpeak (hearlier.trans_le (peakAfter_le_lastPeak hcount))

variable [IsStrictOrderedRing K]

theorem fallAfter_nonneg (results : List K) (count : ℕ) : 0 ≤ fallAfter results count :=
  sub_nonneg.mpr (le_largestUpTo le_rfl)

theorem deepestFall_nonneg (results : List K) : 0 ≤ deepestFall results :=
  (fallAfter_nonneg results 0).trans (le_largestUpTo (Nat.zero_le _))

end

variable [IsStrictOrderedRing K]

/-! ## What the running sums come to -/

omit [IsStrictOrderedRing K] in
theorem extend_exact (curve : Curve K) (result : K) :
    (curve.extend result).equity = curve.equity + result ∧
      (curve.extend result).peak = max curve.peak (curve.equity + result) ∧
      (curve.extend result).drawdown =
        max curve.drawdown (max curve.peak (curve.equity + result) - (curve.equity + result)) :=
  ⟨rfl, rfl, rfl⟩

theorem ofResults_exact (results : List K) :
    (ofResults results).equity = results.sum ∧ (ofResults results).peak = lastPeak results ∧
      (ofResults results).drawdown = deepestFall results := by
  induction results using List.reverseRecOn with
  | nil =>
    have hpeak : lastPeak ([] : List K) = 0 := by
      rw [lastPeak, peakAfter, List.length_nil, largestUpTo_zero, equityAfter, List.take_nil,
        List.sum_nil]
    have hfall : deepestFall ([] : List K) = 0 := by
      rw [deepestFall, List.length_nil, largestUpTo_zero, fallAfter, peakAfter, largestUpTo_zero,
        sub_self]
    rw [hpeak, hfall]
    exact ⟨Exact.zero_literal, Exact.zero_literal, Exact.zero_literal⟩
  | append_singleton results next ih =>
    obtain ⟨hequity, hpeak, hdrawdown⟩ := ih
    have hcurve : ofResults (results ++ [next]) = (ofResults results).extend next := by
      rw [ofResults, List.foldl_append, List.foldl_cons, List.foldl_nil, ofResults]
    obtain ⟨hnextEquity, hnextPeak, hnextDrawdown⟩ := extend_exact (ofResults results) next
    rw [hcurve, hnextEquity, hnextPeak, hnextDrawdown, deepestFall_concat, lastPeak_concat,
      List.sum_append, List.sum_singleton, hequity, hpeak, hdrawdown]
    exact ⟨rfl, rfl, rfl⟩

theorem drawdownPercent_ofResults (results : List K) :
    (ofResults results).drawdownPercent =
      if 0 < lastPeak results then deepestFall results / lastPeak results * 100 else 0 := by
  obtain ⟨-, hpeak, hdrawdown⟩ := ofResults_exact results
  rw [drawdownPercent, hpeak, hdrawdown, Exact.zero_literal, Exact.hundred_literal]
  simp only [Exact.atMost_iff, ← not_lt, ite_not]

section

variable {results : List K}

theorem drawdownPercent_of_pos (hpeak : 0 < lastPeak results) :
    (ofResults results).drawdownPercent = deepestFall results / lastPeak results * 100 := by
  rw [drawdownPercent_ofResults, if_pos hpeak]

theorem drawdownPercent_of_nonpos (hpeak : ¬0 < lastPeak results) :
    (ofResults results).drawdownPercent = 0 := by
  rw [drawdownPercent_ofResults, if_neg hpeak]

theorem drawdownPercent_nonneg (results : List K) : 0 ≤ (ofResults results).drawdownPercent := by
  rw [drawdownPercent_ofResults]
  have hfall := deepestFall_nonneg results
  split <;> positivity

theorem shareAfter_nonneg (results : List K) (count : ℕ) : 0 ≤ shareAfter results count := by
  rw [shareAfter]
  have hfall := fallAfter_nonneg results count
  split <;> positivity

theorem isGreatest_deepestShare (hpeak : 0 < lastPeak results) :
    IsGreatest {share | ∃ count ≤ results.length, 0 < peakAfter results count ∧
      share = fallAfter results count / peakAfter results count * 100} (deepestShare results) := by
  constructor
  · obtain ⟨count, hcount, heq⟩ := exists_eq_largestUpTo (shareAfter results) results.length
    by_cases hpositive : 0 < peakAfter results count
    · exact ⟨count, hcount, hpositive, heq.trans (shareAfter_of_pos hpositive)⟩
    · -- then no percentage is positive, that of the last peak neither
      have hzero : deepestShare results = 0 := heq.trans (shareAfter_of_nonpos hpositive)
      have hlast : shareAfter results results.length ≤ 0 := hzero ▸ le_largestUpTo le_rfl
      refine ⟨results.length, le_rfl, hpeak, ?_⟩
      rw [hzero, ← shareAfter_of_pos hpeak]
      exact le_antisymm (shareAfter_nonneg _ _) hlast
  · rintro share ⟨count, hcount, hpositive, rfl⟩
    rw [← shareAfter_of_pos hpositive]
    exact le_largestUpTo hcount

theorem drawdownPercent_lt_deepestShare_iff :
    (ofResults results).drawdownPercent < deepestShare results ↔
      ∃ count ≤ results.length, 0 < peakAfter results count ∧
        deepestFall results / lastPeak results <
          fallAfter results count / peakAfter results count := by
  rw [deepestShare, lt_largestUpTo_iff]
  refine exists_congr fun count => and_congr_right fun hcount => ?_
  by_cases hpositive : 0 < peakAfter results count
  · have hlast := hpositive.trans_le (peakAfter_le_lastPeak hcount)
    rw [drawdownPercent_of_pos hlast, shareAfter_of_pos hpositive,
      mul_lt_mul_iff_left₀ (by norm_num)]
    exact (and_iff_right hpositive).symm
  · rw [shareAfter_of_nonpos hpositive]
    exact iff_of_false (drawdownPercent_nonneg results).not_gt fun h => hpositive h.1

theorem deepestShare_lt_drawdownPercent_iff :
    deepestShare results < (ofResults results).drawdownPercent ↔
      0 < lastPeak results ∧ ∀ count ≤ results.length, 0 < peakAfter results count →
        fallAfter results count / peakAfter results count <
          deepestFall results / lastPeak results := by
  by_cases hpeak : 0 < lastPeak results
  · rw [deepestShare, largestUpTo_lt_iff, drawdownPercent_of_pos hpeak, and_iff_right hpeak]
    constructor
    · intro hless count hcount hpositive
      have hshare := hless count hcount
      rwa [shareAfter_of_pos hpositive, mul_lt_mul_iff_left₀ (by norm_num)] at hshare
    · intro hless count hcount
      by_cases hpositive : 0 < peakAfter results count
      · rw [shareAfter_of_pos hpositive, mul_lt_mul_iff_left₀ (by norm_num)]
        exact hless count hcount hpositive
      · have hlast := hless results.length le_rfl hpeak
        have hnonneg : 0 ≤ fallAfter results results.length / lastPeak results :=
          div_nonneg (fallAfter_nonneg _ _) hpeak.le
        rw [shareAfter_of_nonpos hpositive]
        exact mul_pos (hnonneg.trans_lt hlast) (by norm_num)
  · rw [drawdownPercent_of_nonpos hpeak, deepestShare_of_nonpos hpeak]
    exact iff_of_false (lt_irrefl 0) fun h => hpeak h.1

theorem drawdownPercent_concat_lt_iff (next : K) :
    (ofResults (results ++ [next])).drawdownPercent < (ofResults results).drawdownPercent ↔
      0 < lastPeak results ∧ 0 < deepestFall results ∧
        lastPeak results < results.sum + next := by
  have hfall := deepestFall_nonneg results
  by_cases hpeak : 0 < lastPeak results
  · rw [and_iff_right hpeak]
    by_cases hhigh : lastPeak results < results.sum + next
    · have hnext : lastPeak (results ++ [next]) = results.sum + next := by
        rw [lastPeak_concat, max_eq_right hhigh.le]
      have hsame : deepestFall (results ++ [next]) = deepestFall results := by
        rw [deepestFall_concat, hnext, sub_self, max_eq_left hfall]
      rw [drawdownPercent_of_pos (hnext ▸ hpeak.trans hhigh), drawdownPercent_of_pos hpeak, hnext,
        hsame, mul_lt_mul_iff_left₀ (by norm_num), and_iff_left hhigh]
      refine ⟨fun hlower => hfall.lt_of_ne' fun hzero => ?_, fun hdeep => ?_⟩
      · rw [hzero, zero_div, zero_div] at hlower
        exact lt_irrefl 0 hlower
      · exact div_lt_div_of_pos_left hdeep hpeak hhigh
    · have hnext : lastPeak (results ++ [next]) = lastPeak results := by
        rw [lastPeak_concat, max_eq_left (not_lt.mp hhigh)]
      refine iff_of_false (not_lt.mpr ?_) fun h => hhigh h.2
      rw [drawdownPercent_of_pos hpeak, drawdownPercent_of_pos (hnext ▸ hpeak), hnext]
      have hdeeper : deepestFall results ≤ deepestFall (results ++ [next]) := by
        rw [deepestFall_concat]
        exact le_max_left _ _
      gcongr
  · rw [drawdownPercent_of_nonpos hpeak]
    exact iff_of_false (drawdownPercent_nonneg _).not_gt fun h => hpeak h.1

end

/-- What a window shows as its drawdown, beside the largest percentage that a fall took of the peak
it is from. -/
structure MeasuredFromLastPeak (results : List K) : Prop where
  /-- The largest fall is divided by the last peak. -/
  value : (ofResults results).drawdownPercent =
    if 0 < lastPeak results then deepestFall results / lastPeak results * 100 else 0
  /-- The largest percentage is over all times at which the peak is positive. -/
  greatest : 0 < lastPeak results →
    IsGreatest {share | ∃ count ≤ results.length, 0 < peakAfter results count ∧
      share = fallAfter results count / peakAfter results count * 100} (deepestShare results)
  /-- Where the peak never is positive, both are zero. -/
  unpeaked : ¬0 < lastPeak results →
    (ofResults results).drawdownPercent = 0 ∧ deepestShare results = 0
  /-- Too little is shown exactly if some fall was deeper for its own peak. -/
  understated : (ofResults results).drawdownPercent < deepestShare results ↔
    ∃ count ≤ results.length, 0 < peakAfter results count ∧
      deepestFall results / lastPeak results <
        fallAfter results count / peakAfter results count
  /-- Too much is shown exactly if no fall from a positive peak was as deep. -/
  overstated : deepestShare results < (ofResults results).drawdownPercent ↔
    0 < lastPeak results ∧ ∀ count ≤ results.length, 0 < peakAfter results count →
      fallAfter results count / peakAfter results count <
        deepestFall results / lastPeak results
  /-- A further trade lowers what is shown exactly if it brings a new high after a drawdown. -/
  lowered : ∀ next,
    (ofResults (results ++ [next])).drawdownPercent < (ofResults results).drawdownPercent ↔
      0 < lastPeak results ∧ 0 < deepestFall results ∧ lastPeak results < results.sum + next
  /-- It never lowers the largest percentage. -/
  grows : ∀ next, deepestShare results ≤ deepestShare (results ++ [next])

/-- In exact arithmetic a window shows the largest percentage except where the deepest fall and the
last peak give another quotient, and a later high makes what it shows smaller. -/
theorem measured_from_last_peak (results : List K) : MeasuredFromLastPeak results where
  value := drawdownPercent_ofResults results
  greatest := isGreatest_deepestShare
  unpeaked hpeak := ⟨drawdownPercent_of_nonpos hpeak, deepestShare_of_nonpos hpeak⟩
  understated := drawdownPercent_lt_deepestShare_iff
  overstated := deepestShare_lt_drawdownPercent_iff
  lowered := drawdownPercent_concat_lt_iff
  grows := deepestShare_le_concat results

/-- After a second high the deepest fall is divided by that. -/
theorem measured_from_last_peak_of_two_highs :
    IsStrictOrderedRing ℚ ∧ lastPeak ([10, -5, 20] : List ℚ) = 25 ∧
      deepestFall ([10, -5, 20] : List ℚ) = 5 ∧ MeasuredFromLastPeak ([10, -5, 20] : List ℚ) :=
  ⟨inferInstance, by decide +kernel, by decide +kernel, measured_from_last_peak _⟩

/-- A fall to half of the peak shows as a fifth once a later trade brings a new high, in binary64
alike, and a loss before the first profit shows as if all of that was lost. -/
theorem later_high_lowers_drawdown :
    (ofResults ([10, -5] : List ℚ)).drawdownPercent = 50 ∧
      (ofResults ([10, -5, 20] : List ℚ)).drawdownPercent = 20 ∧
      deepestShare ([10, -5, 20] : List ℚ) = 50 ∧
      (Window.filled 10 [⟨⟨0⟩, 10.0⟩, ⟨⟨1⟩, -5.0⟩]).metrics.maxDrawdown = 50.0 ∧
      (Window.filled 10 [⟨⟨0⟩, 10.0⟩, ⟨⟨1⟩, -5.0⟩, ⟨⟨2⟩, 20.0⟩]).metrics.maxDrawdown = 20.0 ∧
      (ofResults ([-5, 10] : List ℚ)).drawdownPercent = 100 ∧
      deepestShare ([-5, 10] : List ℚ) = 0 := by
  refine ⟨?_, ?_, ?_, rfl, rfl, ?_, ?_⟩ <;> decide +kernel

end ExposureControl.Drift.Curve
