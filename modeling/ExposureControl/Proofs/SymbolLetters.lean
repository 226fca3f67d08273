import ExposureControl.Proofs.FillMatching
import Mathlib.Data.List.Forall2

/-!
# The letters of a symbol

Symbols that are spelled alike up to the case of ASCII letters have one key, and nothing that the
cost desk does looks at a symbol otherwise.  So a call may as well be made with keys in place of
symbols, of a desk that has keys in place of symbols: it leads to the same desk and the same answer,
again with keys in place of symbols.
-/

namespace ExposureControl

namespace Table

variable {κ ν ω : Type} [DecidableEq κ]

theorem mapValues_insert (table : Table κ ν) (f : ν → ω) (key : κ) (value : ν) :
    (table.insert key value).mapValues (fun _ => f) =
      (table.mapValues fun _ => f).insert key (f value) := by
  obtain ⟨entries, distinct⟩ := table
  simp only [insert, mapValues, mk.injEq]
  clear distinct
  induction entries with
  | nil => rfl
  | cons entry rest ih =>
    obtain ⟨k, v⟩ := entry
    by_cases hk : k = key
    · simp [assign, hk]
    · simp [assign, hk, ih]

omit [DecidableEq κ] in
theorem mapValues_filter {keep : κ → ν → Bool} {keep' : κ → ω → Bool} {f : ν → ω}
    (hkeep : ∀ key value, keep' key (f value) = keep key value) (table : Table κ ν) :
    (table.filter keep).mapValues (fun _ => f) = (table.mapValues fun _ => f).filter keep' := by
  simp only [filter, mapValues, List.filter_map, Function.comp_def, hkeep]

omit [DecidableEq κ] in
theorem mapValues_mapValues {ξ : Type} (table : Table κ ν) (f : ν → ω) (g : ω → ξ) :
    (table.mapValues fun _ => f).mapValues (fun _ => g) =
      table.mapValues fun _ value => g (f value) := by
  simp [mapValues]

end Table

namespace Costs

/-! ## Letters -/

/-- Whether two characters are the same or the two cases of one ASCII letter, the letters numbered
from zero. -/
def SameLetter (c d : Char) : Prop :=
  c = d ∨ ∃ n < 26, (c.toNat = 'A'.toNat + n ∧ d.toNat = 'a'.toNat + n) ∨
    (c.toNat = 'a'.toNat + n ∧ d.toNat = 'A'.toNat + n)

/-- Whether two symbols differ in nothing but the case of ASCII letters. -/
def SameLetters (a b : String) : Prop := List.Forall₂ SameLetter a.toList b.toList

theorem toNat_toUpper (c : Char) :
    c.toUpper.toNat = if 97 ≤ c.toNat ∧ c.toNat ≤ 122 then c.toNat - 32 else c.toNat := by
  have hlower : ('a'.val ≤ c.val ∧ c.val ≤ 'z'.val) ↔ (97 ≤ c.toNat ∧ c.toNat ≤ 122) := by
    rw [UInt32.le_iff_toNat_le, UInt32.le_iff_toNat_le]
    rfl
  unfold Char.toUpper
  split
  · next hc =>
    have hrange := hlower.mp hc
    rw [if_pos hrange]
    change (c.val + ('A'.val - 'a'.val)).toNat = _
    rw [UInt32.toNat_add]
    -- the distance between the cases is negative, and wraps around
    change (c.toNat + 4294967264) % 4294967296 = _
    omega
  · next hc => rw [if_neg (mt hlower.mpr hc)]

theorem sameLetter_iff (c d : Char) : SameLetter c d ↔ c.toUpper = d.toUpper := by
  rw [← Char.toNat_inj, toNat_toUpper, toNat_toUpper, SameLetter, ← Char.toNat_inj]
  change (c.toNat = d.toNat ∨ ∃ n < 26, (c.toNat = 65 + n ∧ d.toNat = 97 + n) ∨
    (c.toNat = 97 + n ∧ d.toNat = 65 + n)) ↔ _
  constructor
  · rintro (hsame | ⟨n, hn, hcases⟩)
    · rw [hsame]
    · split_ifs <;> omega
  · intro hupper
    by_cases hsame : c.toNat = d.toNat
    · exact .inl hsame
    · refine .inr ?_
      split_ifs at hupper with hc hd hd
      · omega
      · exact ⟨c.toNat - 97, by omega, .inr (by omega)⟩
      · exact ⟨d.toNat - 97, by omega, .inl (by omega)⟩
      · exact absurd hupper hsame

theorem sameLetters_iff {a b : String} : SameLetters a b ↔ symbolKey a = symbolKey b := by
  have hsame : SameLetter = fun c d => c.toUpper = d.toUpper :=
    funext₂ fun c d => propext (sameLetter_iff c d)
  rw [symbolKey, symbolKey, String.ofList_inj, ← List.forall₂_eq_eq_eq, List.forall₂_map_left_iff,
    List.forall₂_map_right_iff, SameLetters, hsame]

instance (a b : String) : Decidable (SameLetters a b) := decidable_of_iff _ sameLetters_iff.symm

theorem symbolKey_symbolKey (symbol : String) :
    symbolKey (symbolKey symbol) = symbolKey symbol := by
  have htwice : ∀ c : Char, c.toUpper.toUpper = c.toUpper := by
    intro c
    rw [← Char.toNat_inj, toNat_toUpper, toNat_toUpper]
    split_ifs <;> omega
  simp only [symbolKey, String.toList_ofList, List.map_map, Function.comp_def, htwice]

/-! ## Keys in place of symbols -/

def Submission.keyed (submission : Submission) : Submission :=
  { submission with symbol := symbolKey submission.symbol }

def PendingOrder.keyed (order : PendingOrder) : PendingOrder :=
  { order with symbol := symbolKey order.symbol }

def Sample.keyed (sample : Sample) : Sample :=
  { sample with symbol := symbolKey sample.symbol }

def History.keyed (history : History) : History :=
  { history with samples := history.samples.mapValues fun _ => List.map Sample.keyed }

def Desk.keyed (desk : Desk) : Desk where
  pending := desk.pending.mapValues fun _ => PendingOrder.keyed
  history := desk.history.keyed

def Call.keyed : Call → Call
  | .submit submission now => .submit submission.keyed now
  | call => call

def Answer.keyed : Answer → Answer
  | .filled sample => .filled (sample.map Sample.keyed)
  | answer => answer

namespace History

variable {history : History} {now : Instant}

@[simp]
theorem capacity_keyed (history : History) : history.keyed.capacity = history.capacity := rfl

@[simp]
theorem retention_keyed (history : History) : history.keyed.retention = history.retention := rfl

theorem ofSymbol_congr {a b : String} (hletters : SameLetters a b) (history : History) :
    history.ofSymbol a = history.ofSymbol b := by
  rw [ofSymbol, ofSymbol, sameLetters_iff.mp hletters]

theorem ofSymbol_keyed (history : History) (symbol : String) :
    history.keyed.ofSymbol symbol = (history.ofSymbol symbol).map Sample.keyed := by
  rw [ofSymbol, ofSymbol, keyed, Table.find?_mapValues]
  cases history.samples.find? (symbolKey symbol) <;> rfl

theorem keepFrom_keyed (cutoff : Instant) (samples : List Sample) :
    keepFrom cutoff (samples.map Sample.keyed) = (keepFrom cutoff samples).map Sample.keyed :=
  List.filter_map

theorem extend_keyed (capacity : Nat) (cutoff : Instant) (sample : Sample)
    (samples : List Sample) :
    extend capacity cutoff sample.keyed (samples.map Sample.keyed) =
      (extend capacity cutoff sample samples).map Sample.keyed := by
  have hlonger : samples.map Sample.keyed ++ [sample.keyed] =
      (samples ++ [sample]).map Sample.keyed := by rw [List.map_append, List.map_singleton]
  simp only [extend]
  rw [hlonger, List.length_map, ← List.map_drop, keepFrom_keyed]

theorem keyed_insert (history : History) (key : String) (samples : List Sample) :
    ({ history with samples := history.samples.insert key samples } : History).keyed =
      { history.keyed with
        samples := history.keyed.samples.insert key (samples.map Sample.keyed) } := by
  simp only [keyed, Table.mapValues_insert]

theorem append_keyed (sample : Sample) (now : Instant) (history : History) :
    history.keyed.append sample.keyed now =
      (history.append sample now).map fun done => (done.1.keyed, done.2) := by
  have hsymbol : SameLetters sample.keyed.symbol sample.symbol :=
    sameLetters_iff.mpr (symbolKey_symbolKey sample.symbol)
  rw [append, append, ofSymbol_congr hsymbol, ofSymbol_keyed, sameLetters_iff.mp hsymbol,
    retention_keyed]
  cases now.before history.retention with
  | error fault => rfl
  | ok cutoff =>
    change Except.ok (_, _) = Except.ok (keyed _, _)
    rw [keyed_insert, capacity_keyed, extend_keyed, List.length_map, List.length_map]
    rfl

theorem pruneExpired_keyed (now : Instant) (history : History) :
    history.keyed.pruneExpired now =
      (history.pruneExpired now).map fun done => (done.1.keyed, done.2) := by
  rw [pruneExpired, pruneExpired, retention_keyed]
  cases now.before history.retention with
  | error fault => rfl
  | ok cutoff =>
    have hvalues : history.keyed.samples.values =
        history.samples.values.map (List.map Sample.keyed) := by
      simp [keyed, Table.values, Table.mapValues]
    change Except.ok (_, _) = Except.ok (keyed _, _)
    rw [hvalues, ← List.map_flatten, List.countP_map]
    simp only [keyed, Table.mapValues_mapValues, keepFrom_keyed]
    rfl

end History

namespace Desk

variable {settings : Settings.Costs} {now : Instant}

theorem submit_keyed (submission : Submission) (desk : Desk) :
    desk.keyed.submit settings submission.keyed now =
      (desk.submit settings submission now).keyed := by
  have horder : submission.keyed.order = submission.order := rfl
  rw [submit, submit, horder]
  split
  · simp only [keyed, Table.mapValues_insert]
    rfl
  · rfl

theorem fill_keyed (order : String) (price : Float) (spread : Option Float)
    (filledAt : Option Instant) (desk : Desk) :
    desk.keyed.fill settings order price spread filledAt now =
      (desk.fill settings order price spread filledAt now).map fun done =>
        (done.1.keyed, done.2.map Sample.keyed) := by
  have hfind : desk.keyed.pending.find? order =
      (desk.pending.find? order).map PendingOrder.keyed := Table.find?_mapValues _ _ _
  have herase : ∀ history : History,
      ({ pending := desk.keyed.pending.erase order, history := history.keyed } : Desk) =
        ({ pending := desk.pending.erase order, history } : Desk).keyed := fun history =>
    congrArg (fun pending => (⟨pending, history.keyed⟩ : Desk))
      (Table.mapValues_filter (fun _ _ => rfl) desk.pending).symm
  rw [fill, fill]
  split
  · rw [hfind]
    cases desk.pending.find? order with
    | none => rfl
    | some waiting =>
      have hreference : usableReference? waiting.keyed = usableReference? waiting := rfl
      dsimp only [Option.map_some]
      rw [hreference]
      cases usableReference? waiting with
      | none => exact congrArg (fun next => Except.ok (next, none)) (herase desk.history)
      | some reference =>
        have hsample : sampleOf waiting.keyed reference price spread (filledAt.getD now) =
          (sampleOf waiting reference price spread (filledAt.getD now)).keyed := rfl
        have hhistory : desk.keyed.history = desk.history.keyed := rfl
        dsimp only
        rw [hsample, hhistory, History.append_keyed]
        cases desk.history.append (sampleOf waiting reference price spread (filledAt.getD now))
          now with
        | error fault => rfl
        | ok done =>
          exact congrArg (fun next => Except.ok (next, some _)) (herase done.1)
  · rfl

theorem pruneExpired_keyed (desk : Desk) :
    desk.keyed.pruneExpired settings now =
      (desk.pruneExpired settings now).map fun done => (done.1.keyed, done.2) := by
  have hhistory : desk.keyed.history = desk.history.keyed := rfl
  have hkeep : ∀ cutoff, keepPending cutoff desk.keyed.pending =
      (keepPending cutoff desk.pending).mapValues fun _ => PendingOrder.keyed := fun _ =>
    (Table.mapValues_filter (fun _ _ => rfl) desk.pending).symm
  have hsize : ∀ pending : Table String PendingOrder,
      (pending.mapValues fun _ => PendingOrder.keyed).size = pending.size := fun _ =>
    List.length_map _
  rw [pruneExpired, pruneExpired, hhistory, History.pruneExpired_keyed]
  cases desk.history.pruneExpired now with
  | error fault => rfl
  | ok pruned =>
    cases Span.minutes settings.pendingMinutes with
    | error fault => rfl
    | ok span =>
      cases hcutoff : now.before span with
      | error fault => simp [hcutoff, bind, Except.bind, Except.map]
      | ok cutoff =>
        simp only [hcutoff, bind, Except.bind, pure, Except.pure, Except.map, hkeep, hsize]
        rw [keyed, hsize]
        rfl

theorem perform_keyed (call : Call) (desk : Desk) :
    desk.keyed.perform settings call.keyed =
      (desk.perform settings call).map fun done => (done.1.keyed, done.2.keyed) := by
  cases call with
  | submit submission now =>
    change Except.ok (_, _) = Except.ok (_, _)
    rw [submit_keyed]
    rfl
  | fill order price spread filledAt now =>
    simp only [Call.keyed, perform, fill_keyed]
    cases desk.fill settings order price spread filledAt now <;> rfl
  | prune now =>
    simp only [Call.keyed, perform, pruneExpired_keyed]
    cases desk.pruneExpired settings now <;> rfl

end Desk

end Costs

end ExposureControl
