/-!
# 64-bit ranges

The integers that settings, files and messages can hold: signed and unsigned 64-bit numbers.
-/

namespace ExposureControl.Word64

/-- How many unsigned 64-bit numbers there are. -/
def size : Nat := 18446744073709551616

def unsigned (n : Int) : Bool := 0 ≤ n && n < size

def signed (n : Int) : Bool := -9223372036854775808 ≤ n && n ≤ 9223372036854775807

theorem unsigned_iff (n : Int) : unsigned n = true ↔ 0 ≤ n ∧ n < size := by
  simp [unsigned]

theorem signed_iff (n : Int) :
    signed n = true ↔ -9223372036854775808 ≤ n ∧ n ≤ 9223372036854775807 := by
  simp [signed]

end ExposureControl.Word64
