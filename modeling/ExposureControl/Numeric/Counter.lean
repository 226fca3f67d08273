import ExposureControl.Fault
import ExposureControl.Numeric.Word64

/-!
# Counters

Counts are natural numbers that are kept in words.  A count that its word cannot hold is a fault,
so a counter never starts again from zero.

This matters for counts that a caller can set near their end, by restoring an arm, a position or a
ledger, and for sums of such counts.  Counts that begin at zero with their store and grow by one at
a time have no end here: the serials of pulls, the alerts, the escalations, the closed trades and
what housekeeping removed.  It would take as many steps as a word has values to overflow them.
-/

namespace ExposureControl.Counter

/-- How many counts a half word of 32 bits can hold. -/
def halfWordSize : Nat := 4294967296

/-- A count in a full word of 64 bits, unless it is too large for that. -/
def fullWord (count : Nat) : Except Fault Nat :=
  if count < Word64.size then .ok count else .error .counterOverflow

/-- A full word holds every count in its range. -/
theorem fullWord_of_lt {count : Nat} (h : count < Word64.size) : fullWord count = .ok count :=
  if_pos h

theorem fullWord_of_le {count : Nat} (h : Word64.size ≤ count) :
    fullWord count = .error .counterOverflow :=
  if_neg (Nat.not_lt.mpr h)

end ExposureControl.Counter
