/-!
# Faults

Causes that stop the program rather than being reported to a caller.  Each belongs to a value
that leaves the domain of an operation: a span or a time that cannot be represented, a clip
whose bounds are in the wrong order, a window that no memory has room for, or a counter without
room for one more.
-/

namespace ExposureControl

/-- Why the program cannot go on. -/
inductive Fault
  /-- A duration of more than 2⁶³ − 1 milliseconds in either direction. -/
  | spanTooLong
  /-- A time outside the representable years. -/
  | timeOutOfRange
  /-- A clip whose lower bound is not at or below its upper bound. -/
  | emptyClipRange
  /-- A trade window with more room than memory can address. -/
  | windowTooLarge
  /-- A count too large for the word that holds it. -/
  | counterOverflow
deriving DecidableEq, Repr

namespace Fault

variable {ε α β : Type}

theorem bind_eq_ok_iff {first : Except ε α} {second : α → Except ε β} {result : β} :
    first >>= second = .ok result ↔ ∃ value, first = .ok value ∧ second value = .ok result := by
  cases first <;> simp [bind, Except.bind]

/-- A sequence of two steps is a fault exactly when the first step is one, or the second one after
it. -/
theorem bind_eq_error_iff {first : Except Fault α} {second : α → Except Fault β} {fault : Fault} :
    first >>= second = .error fault ↔
      first = .error fault ∨ ∃ value, first = .ok value ∧ second value = .error fault := by
  cases first <;> simp [bind, Except.bind]

/-- Where the second of two steps is never a fault, a fault of both is one of the first. -/
theorem eq_error_of_bind {first : Except Fault α} {second : α → Except Fault β} {fault : Fault}
    (hfault : first >>= second = .error fault)
    (hsecond : ∀ value, second value ≠ .error fault := by rintro _ ⟨⟩) : first = .error fault :=
  (bind_eq_error_iff.mp hfault).resolve_right fun ⟨value, _, hlater⟩ => hsecond value hlater

theorem pure_eq_ok_iff {value result : α} :
    (pure value : Except ε α) = .ok result ↔ value = result := by
  simp [pure, Except.pure]

end Fault

end ExposureControl
