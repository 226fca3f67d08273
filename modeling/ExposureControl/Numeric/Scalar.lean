/-!
# Scalars

The statistics of this library are sums, quotients and comparisons in a fixed order.  They are
written over an arbitrary scalar type, so that one definition both runs in binary64 and can be
read in an ordered field, where the laws of exact arithmetic hold.
-/

namespace ExposureControl

/-- The operations that statistics need of their numbers.  Literals come from `OfScientific`;
comparisons are decisions, because in binary64 they are false on an undefined value. -/
class Scalar (α : Type) extends Add α, Sub α, Mul α, Div α, OfScientific α where
  /-- The scalar nearest to a count. -/
  ofCount : Nat → α
  /-- Strict order as a decision. -/
  less : α → α → Bool
  /-- Weak order as a decision. -/
  atMost : α → α → Bool
  /-- The larger operand; an undefined operand gives way to the other one. -/
  larger : α → α → α

end ExposureControl
