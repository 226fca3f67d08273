/-!
# Random generators

A generator is an infinite sequence of 64-bit words together with a reading position.  Everything
that is drawn is a function of the words read, so a statement that holds for all generators holds
whatever the random stream yields.
-/

namespace ExposureControl

/-- A stream of random words and the number of words already read. -/
structure Generator where
  words : Nat → UInt64
  position : Nat

namespace Generator

def next (generator : Generator) : UInt64 × Generator :=
  (generator.words generator.position, { generator with position := generator.position + 1 })

/-- A draw from the unit interval that may yield 0 and never yields 1: the 53 high bits of a
word. -/
def unit (generator : Generator) : Float × Generator :=
  let (word, rest) := generator.next
  ((word >>> 11).toFloat / 9007199254740992.0, rest)

/-- A draw from the unit interval without its ends: the 52 high bits of a word, moved to the
middle of their cell. -/
def openUnit (generator : Generator) : Float × Generator :=
  let (word, rest) := generator.next
  (((word >>> 12).toFloat + 0.5) / 4503599627370496.0, rest)

/-- A fair coin: true on the lower half of the words. -/
def coin (generator : Generator) : Bool × Generator :=
  let (word, rest) := generator.next
  (word < 9223372036854775808, rest)

end Generator

end ExposureControl
