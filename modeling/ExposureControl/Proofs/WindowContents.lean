import ExposureControl.Drift.Window
import Mathlib.Data.List.DropRight

/-!
# What a window shows

A window is changed by additions, prunes and clearing, in any order and at any times.  It holds what
a plain list would hold that is cut to the latest trades after each addition.  Its summary is kept
from the last change and not worked out when it is read, so that a change that forgot to renew it
would go unnoticed until the next one; none forgets, and the summary is that of the trades held.
-/

namespace ExposureControl.Drift.Window

variable {window : Window} {cutoff : Instant}

/-! ## The latest trades -/

theorem lastOf_eq_self {α : Type} {n : Nat} {xs : List α} (hroom : xs.length ≤ n) :
    lastOf n xs = xs := by
  rw [lastOf, Nat.sub_eq_zero_of_le hroom, List.drop_zero]

theorem lastOf_lastOf_append {α : Type} (n : Nat) (xs ys : List α) :
    lastOf n (lastOf n xs ++ ys) = lastOf n (xs ++ ys) := by
  have hle : xs.length - n ≤ xs.length := Nat.sub_le _ _
  simp only [lastOf, ← List.drop_append_of_le_length hle, List.drop_drop, List.length_drop,
    List.length_append]
  congr 1
  omega

theorem trades_foldl_push (trades : List Trade) {window : Window}
    (hroom : window.trades.length ≤ window.capacity) :
    (trades.foldl (fun window trade => window.push trade) window).trades =
      lastOf window.capacity (window.trades ++ trades) := by
  induction trades generalizing window with
  | nil => rw [List.foldl_nil, List.append_nil, lastOf_eq_self hroom]
  | cons trade rest ih =>
    have hcapacity : (window.push trade).capacity = window.capacity := rfl
    rw [List.foldl_cons, ih (length_trades_push_le trade window), trades_push, hcapacity,
      lastOf_lastOf_append, List.append_assoc, List.singleton_append]

/-! ## Pruning -/

theorem trades_pruneBefore (cutoff : Instant) (window : Window) :
    (window.pruneBefore cutoff).1.trades =
      window.trades.filter fun trade => decide (cutoff ≤ trade.recordedAt) := by
  dsimp only [pruneBefore]
  split <;> rfl

theorem capacity_pruneBefore (cutoff : Instant) (window : Window) :
    (window.pruneBefore cutoff).1.capacity = window.capacity := by
  dsimp only [pruneBefore]
  split <;> rfl

theorem mk_capacity_pruneBefore (cutoff : Instant) (window : Window) :
    (⟨window.capacity, (window.pruneBefore cutoff).1.trades,
      (window.pruneBefore cutoff).1.metrics⟩ : Window) = (window.pruneBefore cutoff).1 := by
  rw [← capacity_pruneBefore cutoff window]

theorem count_pruneBefore (cutoff : Instant) (window : Window) :
    (window.pruneBefore cutoff).2 =
      window.trades.countP fun trade => decide (trade.recordedAt < cutoff) := by
  have hsplit := List.length_eq_length_filter_add (l := window.trades)
    fun trade => decide (cutoff ≤ trade.recordedAt)
  simp only [Instant.not_decide_le] at hsplit
  rw [List.countP_eq_length_filter]
  exact Nat.sub_eq_of_eq_add' hsplit

theorem pruneBefore_eq_self (hrecent : ∀ trade ∈ window.trades, cutoff ≤ trade.recordedAt) :
    window.pruneBefore cutoff = (window, 0) := by
  have hall : window.trades.filter (fun trade => decide (cutoff ≤ trade.recordedAt)) =
      window.trades :=
    List.filter_eq_self.mpr fun trade htrade => decide_eq_true (hrecent trade htrade)
  simp only [pruneBefore, hall, Nat.sub_self, Nat.lt_irrefl, if_false]

/-! ## Fresh summaries -/

/-- Whether the summary is that of the trades. -/
def Fresh (window : Window) : Prop :=
  window.metrics = .ofResults (window.trades.map Trade.result)

theorem fresh_empty (capacity : Nat) : (empty capacity).Fresh := rfl

theorem fresh_push (trade : Trade) (window : Window) : (window.push trade).Fresh := rfl

theorem fresh_clear (window : Window) : window.clear.Fresh := rfl

/-- A prune works the summary out afresh, unless it dropped nothing. -/
theorem Fresh.pruneBefore (hfresh : window.Fresh) (cutoff : Instant) :
    (window.pruneBefore cutoff).1.Fresh := by
  dsimp only [Window.pruneBefore]
  split
  · rfl
  · next hnone =>
    have hkept : window.trades.filter (fun trade => decide (cutoff ≤ trade.recordedAt)) =
        window.trades := List.filter_sublist.eq_of_length_le (by omega)
    rw [hkept]
    exact hfresh

/-! ## Any sequence of changes -/

/-- A change of a window. -/
inductive Call
  | push (trade : Trade)
  | prune (cutoff : Instant)
  | clear

def perform (window : Window) : Call → Window
  | .push trade => window.push trade
  | .prune cutoff => (window.pruneBefore cutoff).1
  | .clear => window.clear

def after (window : Window) (calls : List Call) : Window := calls.foldl perform window

theorem after_append (window : Window) (first second : List Call) :
    window.after (first ++ second) = (window.after first).after second :=
  List.foldl_append

theorem capacity_perform (window : Window) (call : Call) :
    (window.perform call).capacity = window.capacity := by
  cases call with
  | push | clear => rfl
  | prune cutoff => exact capacity_pruneBefore cutoff window

theorem capacity_after (window : Window) (calls : List Call) :
    (window.after calls).capacity = window.capacity := by
  induction calls generalizing window with
  | nil => rfl
  | cons call rest ih => exact (ih _).trans (capacity_perform window call)

theorem Fresh.perform (hfresh : window.Fresh) (call : Call) : (window.perform call).Fresh := by
  cases call with
  | push trade => exact fresh_push trade window
  | prune cutoff => exact hfresh.pruneBefore cutoff
  | clear => exact fresh_clear window

theorem Fresh.after (hfresh : window.Fresh) (calls : List Call) : (window.after calls).Fresh := by
  induction calls generalizing window with
  | nil => exact hfresh
  | cons call rest ih => exact ih (hfresh.perform call)

/-! ## The reference list -/

/-- What a change makes of a plain list of trades, oldest first, with a bound on its length. -/
def Call.revise (room : Nat) (trades : List Trade) : Call → List Trade
  | .push trade => (trades ++ [trade]).rtake room
  | .prune cutoff => trades.filter fun trade => decide (cutoff ≤ trade.recordedAt)
  | .clear => []

def reference (room : Nat) (calls : List Call) : List Trade :=
  calls.foldl (Call.revise room) []

theorem trades_perform (window : Window) (call : Call) :
    (window.perform call).trades = call.revise window.capacity window.trades := by
  cases call with
  | push trade => exact trades_push trade window
  | prune cutoff => exact trades_pruneBefore cutoff window
  | clear => rfl

theorem trades_after (window : Window) (calls : List Call) :
    (window.after calls).trades = calls.foldl (Call.revise window.capacity) window.trades := by
  induction calls generalizing window with
  | nil => rfl
  | cons call rest ih =>
    change ((window.perform call).after rest).trades = _
    rw [ih, trades_perform, capacity_perform, List.foldl_cons]

theorem Call.length_revise_le {room : Nat} {trades : List Trade} (hroom : trades.length ≤ room)
    (call : Call) : (call.revise room trades).length ≤ room := by
  cases call with
  | push trade => exact length_lastOf_le room (trades ++ [trade])
  | prune cutoff => exact (List.length_filter_le _ _).trans hroom
  | clear => exact Nat.zero_le room

theorem length_reference_le (room : Nat) (calls : List Call) :
    (reference room calls).length ≤ room := by
  induction calls using List.reverseRecOn with
  | nil => exact Nat.zero_le room
  | append_singleton calls last ih =>
    rw [reference, List.foldl_append, List.foldl_cons, List.foldl_nil]
    exact Call.length_revise_le ih last

def filled (capacity : Nat) (trades : List Trade) : Window :=
  (empty capacity).after (trades.map Call.push)

theorem trades_filled {capacity : Nat} {trades : List Trade}
    (hroom : trades.length ≤ max capacity 1) : (filled capacity trades).trades = trades := by
  have hpushed := @trades_foldl_push trades (empty capacity) (Nat.zero_le _)
  rw [filled, after, List.foldl_map]
  exact hpushed.trans (lastOf_eq_self hroom)

/-- What a window shows after changes is what the plain list holds: its trades and how many of them
the next prune would drop, and of the summary every field, as a new window would show it into
which just these trades are pushed. -/
structure Mirrors (window : Window) (room : Nat) (trades : List Trade) : Prop where
  contents : window.trades = trades
  bounded : window.trades.length ≤ room
  pruned : ∀ cutoff,
    (window.pruneBefore cutoff).1.trades =
      trades.filter (fun trade => decide (cutoff ≤ trade.recordedAt)) ∧
    (window.pruneBefore cutoff).2 =
      trades.countP fun trade => decide (trade.recordedAt < cutoff)
  summary : ∀ capacity, trades.length ≤ max capacity 1 →
    (filled capacity trades).trades = trades ∧
      window.metrics = (filled capacity trades).metrics

/-- However additions, prunes and clearing are mixed, and in whatever order the trades' times are,
a window holds what the plain list holds and shows the summary of just that. -/
theorem mirrors_reference (capacity : Nat) (calls : List Call) :
    Mirrors ((empty capacity).after calls) (max capacity 1)
      (reference (max capacity 1) calls) := by
  have hcontents : ((empty capacity).after calls).trades = reference (max capacity 1) calls :=
    trades_after (empty capacity) calls
  have hfresh := (fresh_empty capacity).after calls
  refine ⟨hcontents, ?bounded, fun cutoff => ?pruned, fun other hroom => ?summary⟩
  case bounded =>
    rw [hcontents]
    exact length_reference_le _ calls
  case pruned => rw [← hcontents, trades_pruneBefore, count_pruneBefore]; exact ⟨rfl, rfl⟩
  case summary =>
    have hfilled := trades_filled hroom
    have hother : (filled other (reference (max capacity 1) calls)).Fresh :=
      (fresh_empty other).after _
    refine ⟨hfilled, ?_⟩
    rw [hfresh, hother, hfilled, hcontents]

end ExposureControl.Drift.Window
