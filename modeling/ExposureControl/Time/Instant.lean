import ExposureControl.Fault

/-!
# Instants and spans

Time is counted in whole microseconds since 1970-01-01T00:00:00Z.  Spans are built from days,
minutes or seconds and may be too long to represent; moving an instant by a span may leave the
representable years.  Both are faults, never silent.
-/

namespace ExposureControl

/-- A point in time, in microseconds since 1970-01-01T00:00:00Z. -/
structure Instant where
  micros : Int
deriving DecidableEq, Repr

/-- A signed amount of time, in microseconds. -/
structure Span where
  micros : Int
deriving DecidableEq, Repr

instance : LE Instant := ⟨fun s t => s.micros ≤ t.micros⟩
instance : LT Instant := ⟨fun s t => s.micros < t.micros⟩
instance (s t : Instant) : Decidable (s ≤ t) := inferInstanceAs (Decidable (s.micros ≤ t.micros))
instance (s t : Instant) : Decidable (s < t) := inferInstanceAs (Decidable (s.micros < t.micros))

theorem Instant.le_iff (s t : Instant) : s ≤ t ↔ s.micros ≤ t.micros := Iff.rfl

theorem Instant.lt_iff (s t : Instant) : s < t ↔ s.micros < t.micros := Iff.rfl

theorem Instant.not_decide_le (s t : Instant) : (!decide (s ≤ t)) = decide (t < s) := by
  rw [← decide_not]
  exact decide_eq_decide.mpr Int.not_le

theorem Instant.not_decide_lt (s t : Instant) : (!decide (s < t)) = decide (t ≤ s) := by
  rw [← decide_not]
  exact decide_eq_decide.mpr Int.not_lt

namespace Span

/-- The longest span, in milliseconds. -/
def maxMillis : Int := 9223372036854775807

def ofMillis (n : Int) : Span := ⟨n * 1000⟩

def ofSeconds (n : Int) : Span := ofMillis (n * 1000)

/-- A span of `n` milliseconds, unless it is too long. -/
def checked (n : Int) : Except Fault Span :=
  if n.natAbs ≤ maxMillis.natAbs then .ok (ofMillis n) else .error .spanTooLong

def days (n : Int) : Except Fault Span := checked (n * 86400000)

def minutes (n : Int) : Except Fault Span := checked (n * 60000)

/-- Whole milliseconds, with any fraction cut off toward zero. -/
def wholeMillis (d : Span) : Int := d.micros.tdiv 1000

end Span

namespace Instant

/-- The first representable instant, the start of year −262143. -/
def first : Instant := ⟨-8334601228800000000⟩

/-- The last representable instant, the end of year 262142. -/
def last : Instant := ⟨8210266876799999999⟩

/-- An instant of the given number, unless it leaves the representable years. -/
def checked (micros : Int) : Except Fault Instant :=
  if first.micros ≤ micros ∧ micros ≤ last.micros then .ok ⟨micros⟩ else .error .timeOutOfRange

theorem checked_eq_ok_iff (micros : Int) (t : Instant) :
    checked micros = .ok t ↔ t = ⟨micros⟩ ∧ first ≤ t ∧ t ≤ last := by
  unfold checked
  split
  · next bounds =>
    constructor
    · rintro ⟨⟩
      exact ⟨rfl, bounds⟩
    · rintro ⟨rfl, _⟩
      rfl
  · next outside =>
    constructor
    · rintro ⟨⟩
    · rintro ⟨rfl, bounds⟩
      exact absurd bounds outside

def after (t : Instant) (d : Span) : Except Fault Instant := checked (t.micros + d.micros)

def before (t : Instant) (d : Span) : Except Fault Instant := checked (t.micros - d.micros)

def since (t earlier : Instant) : Span := ⟨t.micros - earlier.micros⟩

end Instant

end ExposureControl
