import ExposureControl.Proofs.Counting
import ExposureControl.Proofs.HourlyMeans
import ExposureControl.Proofs.SampleEviction

/-!
# What a summary says

Every sample is stored under the key of its symbol, so that the samples of a symbol are those whose
symbol has the same letters.  A summary is made of those that lie in a range of time: it counts
them, and its averages, in exact arithmetic, agree with one another hour by hour.
-/

namespace ExposureControl

/-- Whether a time lies in an hour, counted from zero, of some UTC day. -/
def Instant.LiesInHour (time : Instant) (hour : Nat) : Prop :=
  hour < 24 ∧ ∃ day : Int, (day * 24 + hour) * 3600000000 ≤ time.micros ∧
    time.micros < (day * 24 + hour + 1) * 3600000000

theorem Instant.liesInHour_iff {time : Instant} {hour : Nat} :
    time.LiesInHour hour ↔ time.hour = hour := by
  unfold LiesInHour Instant.hour microsOfDay microsPerDay
  constructor
  · rintro ⟨hhour, day, hfrom, hto⟩
    omega
  · rintro rfl
    exact ⟨by omega, time.micros / 86400000000, by omega, by omega⟩

instance (time : Instant) (hour : Nat) : Decidable (time.LiesInHour hour) :=
  decidable_of_iff _ Instant.liesInHour_iff.symm

namespace Table

variable {κ ν : Type} [DecidableEq κ]

theorem flatMap_keys (table : Table κ (List ν)) :
    (table.keys.flatMap fun key => (table.find? key).getD []) = table.values.flatten := by
  rw [keys, values, List.flatMap_map, ← List.flatMap_def]
  refine List.flatMap_congr fun entry hmem => ?_
  rw [(mem_entries_iff table entry.1 entry.2).mp hmem, Option.getD_some]

/-- Where every value is listed under a key of its own, the list of a key is made of the values that
have it. -/
theorem filter_flatten_values {key : ν → κ} {table : Table κ (List ν)}
    (hkey : ∀ {each : κ} {list : List ν}, table.find? each = some list →
      ∀ value ∈ list, key value = each) (wanted : κ) :
    table.values.flatten.filter (fun value => key value = wanted) =
      (table.find? wanted).getD [] := by
  simp only [← mem_entries_iff] at hkey
  obtain ⟨entries, distinct⟩ := table
  simp only [values, find?] at hkey ⊢
  induction entries with
  | nil => rfl
  | cons entry rest ih =>
    obtain ⟨each, list⟩ := entry
    obtain ⟨hnew, hdistinct⟩ := List.nodup_cons.mp distinct
    have hrest := ih hdistinct fun hmem => hkey (List.mem_cons_of_mem _ hmem)
    rw [List.map_cons, List.flatten_cons, List.filter_append, hrest, lookup]
    by_cases hwanted : each = wanted
    · subst hwanted
      rw [if_pos rfl, lookup_eq_none_of_notMem hnew, Option.getD_none, List.append_nil,
        Option.getD_some]
      exact List.filter_eq_self.mpr fun value hmem =>
        decide_eq_true (hkey List.mem_cons_self value hmem)
    · rw [if_neg hwanted, List.filter_eq_nil_iff.mpr, List.nil_append]
      intro value hmem
      rw [hkey List.mem_cons_self value hmem]
      simpa using hwanted

end Table

namespace Costs

/-! ## Stored samples -/

/-- Whether a sample is asked for: it has the letters of a symbol, and lies in a range of time that
includes its ends, as far as these are given. -/
structure Sample.Matches (symbol : Option String) (start stop : Option Instant)
    (sample : Sample) : Prop where
  letters : ∀ wanted ∈ symbol, SameLetters sample.symbol wanted
  start : ∀ first ∈ start, first ≤ sample.filledAt
  stop : ∀ last ∈ stop, sample.filledAt ≤ last

theorem Sample.matches_iff {symbol : Option String} {start stop : Option Instant}
    {sample : Sample} : sample.Matches symbol start stop ↔
      (∀ wanted ∈ symbol, SameLetters sample.symbol wanted) ∧
        Summary.inRange start stop sample = true := by
  simp only [Summary.inRange, Bool.and_eq_true, Option.all_eq_true, decide_eq_true_eq]
  exact ⟨fun h => ⟨h.letters, h.start, h.stop⟩, fun h => ⟨h.1, h.2.1, h.2.2⟩⟩

instance (symbol : Option String) (start stop : Option Instant) (sample : Sample) :
    Decidable (sample.Matches symbol start stop) :=
  decidable_of_iff _ Sample.matches_iff.symm

namespace History

variable {history next : History} {call : Call} {dropped capacity : Nat} {retention : Span}
  {events : List Event} {symbol : Option String} {start stop : Option Instant}

def stored (history : History) : List Sample := history.samples.values.flatten

/-- The stored samples that are asked for. -/
def matching (history : History) (symbol : Option String) (start stop : Option Instant) :
    List Sample :=
  history.stored.filter fun sample => sample.Matches symbol start stop

/-- Whether every sample is stored under the key of its symbol. -/
def FiledByKey (history : History) : Prop :=
  ∀ {key : String} {samples : List Sample}, history.samples.find? key = some samples →
    ∀ sample ∈ samples, symbolKey sample.symbol = key

theorem mem_of_mem_extend {room : Nat} {cutoff : Instant} {sample added : Sample}
    {samples : List Sample} (hmem : sample ∈ extend room cutoff added samples) :
    sample ∈ samples ∨ sample = added := by
  have hlonger := List.mem_of_mem_drop (List.mem_of_mem_filter hmem)
  rwa [List.mem_append, List.mem_singleton] at hlonger

theorem filedByKey_perform (hfiled : history.FiledByKey)
    (hdone : history.perform call = .ok (next, dropped)) : next.FiledByKey := by
  intro key samples hfound sample hmem
  cases call with
  | append added now =>
    simp only [perform, append, Fault.bind_eq_ok_iff, Fault.pure_eq_ok_iff, Prod.mk.injEq] at hdone
    obtain ⟨cutoff, -, rfl, -⟩ := hdone
    rw [Table.find?_insert] at hfound
    split at hfound
    · next hkey =>
      obtain rfl := Option.some.inj hfound
      obtain hold | rfl := mem_of_mem_extend hmem
      · rw [ofSymbol, ← hkey] at hold
        cases hbefore : history.samples.find? key with
        | none =>
          rw [hbefore] at hold
          cases hold
        | some before =>
          rw [hbefore] at hold
          exact hfiled hbefore sample hold
      · exact hkey.symm
    · exact hfiled hfound sample hmem
  | prune now =>
    simp only [perform, pruneExpired, Fault.bind_eq_ok_iff, Fault.pure_eq_ok_iff,
      Prod.mk.injEq] at hdone
    obtain ⟨cutoff, -, rfl, -⟩ := hdone
    rw [Table.find?_mapValues] at hfound
    obtain ⟨before, hbefore, rfl⟩ := Option.map_eq_some_iff.mp hfound
    exact hfiled hbefore sample (List.mem_of_mem_filter hmem)

theorem filedByKey_of_trace (htrace : Trace perform (.empty capacity retention) events history) :
    history.FiledByKey := by
  induction htrace with
  | start => exact fun hfound => nomatch hfound
  | event past done ih => exact filedByKey_perform ih done

theorem all_perm_stored (history : History) : history.all.Perm history.stored := by
  rw [stored, ← Table.flatMap_keys]
  exact (List.mergeSort_perm _ _).flatMap_right _

theorem ofSymbol_eq_filter (hfiled : history.FiledByKey) (symbol : String) :
    history.ofSymbol symbol =
      history.stored.filter fun sample => SameLetters sample.symbol symbol := by
  rw [ofSymbol, ← Table.filter_flatten_values hfiled (symbolKey symbol)]
  simp only [sameLetters_iff]
  rfl

/-! ## Summaries -/

/-- The samples that a summary is made of. -/
def chosen (history : History) (symbol : Option String) (start stop : Option Instant) :
    List Sample :=
  (match symbol with
    | some symbol => history.ofSymbol symbol
    | none => history.all).filter (Summary.inRange start stop)

theorem summary_eq (history : History) (symbol : Option String) (start stop : Option Instant) :
    history.summary symbol start stop = .ofSamples (history.chosen symbol start stop) := by
  cases symbol <;> rfl

theorem chosen_perm_matching (hfiled : history.FiledByKey) (symbol : Option String)
    (start stop : Option Instant) :
    (history.chosen symbol start stop).Perm (history.matching symbol start stop) := by
  cases symbol with
  | none =>
    have hmatches : (fun sample : Sample => decide (sample.Matches none start stop)) =
        Summary.inRange start stop := by
      funext sample
      simp [Sample.matches_iff]
    rw [matching, hmatches]
    exact (all_perm_stored history).filter _
  | some wanted =>
    have hmatches : (fun sample : Sample => decide (sample.Matches (some wanted) start stop)) =
        fun sample => Summary.inRange start stop sample &&
          decide (SameLetters sample.symbol wanted) := by
      funext sample
      simp [Sample.matches_iff, Bool.and_comm]
    rw [matching, hmatches, ← List.filter_filter, ← ofSymbol_eq_filter hfiled]
    exact .refl _

/-- The mean slippage that a summary gives, overall and by hour, over any scalars. -/
structure Means (α : Type) where
  /-- Absent without samples. -/
  overall : Option α
  hourly : List (Nat × α)

def means {α : Type} [Scalar α] (read : Float → α) (history : History) (symbol : Option String)
    (start stop : Option Instant) : Means α where
  overall := Mean.running? ((history.chosen symbol start stop).map fun sample =>
    read sample.slippage)
  hourly := hourlyMeans ((history.chosen symbol start stop).map fun sample =>
    (sample.hour, read sample.slippage))

theorem summary_means (history : History) (symbol : Option String) (start stop : Option Instant) :
    (history.summary symbol start stop).averageSlippage =
        (history.means id symbol start stop).overall.getD Binary64.undefined ∧
      (history.summary symbol start stop).hourly = (history.means id symbol start stop).hourly := by
  rw [summary_eq]
  exact ⟨rfl, rfl⟩

/-- What holds of a summary of samples, and of its means in exact arithmetic. -/
structure AddsUp {K : Type} [Field K] (summary : Summary) (means : Means K)
    (samples : List Sample) : Prop where
  count : summary.count = samples.length
  ascending : (summary.hourly.map Prod.fst).Pairwise (· < ·)
  hours : ∀ hour, hour ∈ summary.hourly.map Prod.fst ↔
    ∃ sample ∈ samples, sample.filledAt.LiesInHour hour
  sameHours : means.hourly.map Prod.fst = summary.hourly.map Prod.fst
  undefined : means.overall = none ↔ summary.count = 0
  /-- The overall mean, times the count, is the sum of the hourly means, each times the number of
  samples of its hour. -/
  total : ∀ mean ∈ means.overall, mean * (summary.count : K) =
    (means.hourly.map fun hourly => hourly.2 *
      ((samples.countP fun sample => sample.filledAt.LiesInHour hourly.1 : ℕ) : K)).sum

open scoped Exact in
theorem addsUp_of_perm {K : Type} [Field K] [LinearOrder K] [IsStrictOrderedRing K]
    {samples : List Sample} (hperm : (history.chosen symbol start stop).Perm samples)
    (read : Float → K) :
    AddsUp (history.summary symbol start stop) (history.means read symbol start stop) samples := by
  have hcount : (history.summary symbol start stop).count =
      (history.chosen symbol start stop).length := by
    rw [summary_eq]
    rfl
  have hhourly : (history.summary symbol start stop).hourly =
      hourlyMeans ((history.chosen symbol start stop).map fun sample =>
        (sample.hour, sample.slippage)) := by
    rw [summary_eq]
    rfl
  constructor
  case count => rw [hcount, hperm.length_eq]
  case ascending =>
    rw [hhourly]
    exact ascending_hourlyMeans _
  case hours =>
    intro hour
    rw [hhourly, mem_hours_hourlyMeans_iff]
    simp only [List.map_map, List.mem_map, Function.comp_apply, hperm.mem_iff,
      Instant.liesInHour_iff]
    rfl
  case sameHours =>
    rw [hhourly]
    refine hours_hourlyMeans_congr ?_
    simp only [List.map_map, Function.comp_def]
  case undefined =>
    rw [means, Mean.running?_eq_none_iff, hcount, List.map_eq_nil_iff, List.length_eq_zero_iff]
  case total =>
    intro mean hmean
    have hoverall := Mean.mul_length_of_running? hmean
    have hsum := sum_hourlyMeans ((history.chosen symbol start stop).map fun sample =>
      (sample.hour, read sample.slippage))
    rw [List.length_map] at hoverall
    rw [hcount, hoverall]
    simp only [List.map_map, Function.comp_def, List.countP_map, hperm.countP_eq] at hsum
    simp only [Instant.liesInHour_iff]
    exact hsum.symm

theorem length_matching_some (history : History) (wanted : String) (start stop : Option Instant) :
    (history.matching (some wanted) start stop).length =
      (history.matching none start stop).countP fun sample =>
        symbolKey sample.symbol = symbolKey wanted := by
  rw [matching, matching, List.countP_filter, ← List.countP_eq_length_filter]
  refine List.countP_congr fun sample _ => ?_
  simp [Sample.matches_iff, sameLetters_iff]

/-- What is asked for without a symbol is asked for under one of several symbols, if they cover it
and differ in their letters. -/
theorem sum_length_matching {symbols : List String}
    (hdifferent : symbols.Pairwise fun a b => ¬ SameLetters a b)
    (hcovered : ∀ sample ∈ history.matching none start stop,
      ∃ symbol ∈ symbols, SameLetters sample.symbol symbol) :
    (symbols.map fun symbol => (history.matching (some symbol) start stop).length).sum =
      (history.matching none start stop).length := by
  have hdistinct : (symbols.map symbolKey).Nodup :=
    List.pairwise_map.mpr (hdifferent.imp fun hne => mt sameLetters_iff.mpr hne)
  have hsum := sum_countP_eq (fun sample : Sample => symbolKey sample.symbol) hdistinct
    (history.matching none start stop)
  rw [List.map_map] at hsum
  simp only [length_matching_some]
  refine hsum.trans (List.countP_eq_length.mpr fun sample hmem => ?_)
  obtain ⟨symbol, hsymbol, hletters⟩ := hcovered sample hmem
  rw [decide_eq_true_eq, sameLetters_iff.mp hletters]
  exact List.mem_map_of_mem hsymbol

open scoped Exact in
/-- Whatever was added and pruned, a summary is one of the stored samples that match, and without a
symbol it counts what the summaries of all symbols count together. -/
theorem summaries_add_up (htrace : Trace perform (.empty capacity retention) events history)
    (start stop : Option Instant) :
    (∀ symbol,
      (history.summary symbol start stop).averageSlippage =
          (history.means id symbol start stop).overall.getD Binary64.undefined ∧
        (history.summary symbol start stop).hourly =
          (history.means id symbol start stop).hourly ∧
        ∀ (K : Type) [Field K] [LinearOrder K] [IsStrictOrderedRing K] (read : Float → K),
          AddsUp (history.summary symbol start stop) (history.means read symbol start stop)
            (history.matching symbol start stop)) ∧
      ∀ symbols : List String, symbols.Pairwise (fun a b => ¬ SameLetters a b) →
        (∀ sample ∈ history.matching none start stop,
          ∃ symbol ∈ symbols, SameLetters sample.symbol symbol) →
        (history.summary none start stop).count =
          (symbols.map fun symbol => (history.summary (some symbol) start stop).count).sum := by
  have hfiled : history.FiledByKey := filedByKey_of_trace htrace
  have hchosen := fun symbol => chosen_perm_matching hfiled symbol start stop
  have hcount : ∀ symbol, (history.summary symbol start stop).count =
      (history.matching symbol start stop).length := by
    intro symbol
    rw [summary_eq]
    exact (hchosen symbol).length_eq
  refine ⟨fun symbol => ?_, fun symbols hdifferent hcovered => ?_⟩
  · obtain ⟨haverage, hhourly⟩ := summary_means history symbol start stop
    exact ⟨haverage, hhourly, fun K _ _ _ read => addsUp_of_perm (hchosen symbol) read⟩
  · simp only [hcount, sum_length_matching hdifferent hcovered]

/-! ## Three samples around the start of 1970 -/

/-- The rational number that a binary64 value stands for, or zero if it is not finite. -/
def rational (value : Float) : ℚ :=
  match value.toModel.unpack with
  | .finite .positive mantissa exponent _ => mantissa * 2 ^ exponent
  | .finite .negative mantissa exponent _ => -(mantissa * 2 ^ exponent)
  | _ => 0

/-- A sample of a symbol with its time, in microseconds since the start of 1970, and slippage. -/
def sampleAt (symbol : String) (micros : Int) (slippage : Float) : Sample where
  symbol
  side := .sell
  orderType := .limit
  filledAt := ⟨micros⟩
  slippage
  queueMillis := 0
  referencePrice := 100.0
  fillPrice := 100.0
  dailyVolume := none
  averageRange := none
  spread := none

def roomForFour (samples : List (String × List Sample)) : History :=
  ⟨4, ⟨3600000000⟩, .ofList samples⟩

open scoped Exact in
/-- Two samples in the last hour of 1969 and the first of 1970, in two spellings of one symbol, and
one of another symbol, where the first and the last one lie at the ends of the range of time. -/
theorem summaries_add_up_across_epoch :
    let first := sampleAt "btc" (-1) 1.5
    let second := sampleAt "BTC" 0 (-0.25)
    let third := sampleAt "ETH" 7 2.0
    let history := roomForFour [("BTC", [first, second]), ("ETH", [third])]
    let summary := fun symbol => history.summary symbol (some ⟨-1⟩) (some ⟨7⟩)
    let means := history.means rational (some "Btc") (some ⟨-1⟩) (some ⟨7⟩)
    let matching := fun symbol => history.matching symbol (some ⟨-1⟩) (some ⟨7⟩)
    (∃ events, Trace perform (.empty 4 ⟨3600000000⟩) events history) ∧
      AddsUp (summary (some "Btc")) means (matching (some "Btc")) ∧
      means.overall = some (5 / 8) ∧
      means.hourly = [(0, -1 / 4), (23, 3 / 2)] ∧
      ["Btc", "Eth"].Pairwise (fun a b => ¬ SameLetters a b) ∧
      (∀ sample ∈ matching none, ∃ symbol ∈ ["Btc", "Eth"], SameLetters sample.symbol symbol) ∧
      (summary none).count = (["Btc", "Eth"].map fun symbol => (summary (some symbol)).count).sum ∧
      (matching none).length = 3 := by
  intro first second third history summary means matching
  have hfirst : perform (.empty 4 ⟨3600000000⟩) (.append first ⟨0⟩) =
      .ok (roomForFour [("BTC", [first])], 0) := by
    have hkey : symbolKey first.symbol = "BTC" := by decide +kernel
    rw [perform, append, ofSymbol, hkey]
    rfl
  have hsecond : perform (roomForFour [("BTC", [first])]) (.append second ⟨0⟩) =
      .ok (roomForFour [("BTC", [first, second])], 0) := by
    have hkey : symbolKey second.symbol = "BTC" := by decide +kernel
    rw [perform, append, ofSymbol, hkey]
    rfl
  have hthird : perform (roomForFour [("BTC", [first, second])]) (.append third ⟨7⟩) =
      .ok (history, 0) := by
    have hkey : symbolKey third.symbol = "ETH" := by decide +kernel
    rw [perform, append, ofSymbol, hkey]
    rfl
  have htrace := ((Trace.start.event hfirst).event hsecond).event hthird
  have hdifferent : ["Btc", "Eth"].Pairwise (fun a b => ¬ SameLetters a b) := by decide +kernel
  have hcovered : ∀ sample ∈ matching none,
      ∃ symbol ∈ ["Btc", "Eth"], SameLetters sample.symbol symbol := by decide +kernel
  obtain ⟨hsummaries, hsymbols⟩ := summaries_add_up htrace (some ⟨-1⟩) (some ⟨7⟩)
  exact ⟨⟨_, htrace⟩, (hsummaries (some "Btc")).2.2 ℚ rational, by decide +kernel,
    by decide +kernel, hdifferent, hcovered, hsymbols _ hdifferent hcovered, by decide +kernel⟩

end History

end Costs

end ExposureControl
