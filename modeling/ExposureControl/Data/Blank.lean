/-!
# Blanks

The characters that count as white space between the parts of a written date: those of the
Unicode property White_Space, 25 in all.
-/

namespace ExposureControl.Blank

/-- The property as ranges of code points, both ends included. -/
def ranges : List (Nat × Nat) :=
  [(0x0009, 0x000D), (0x0020, 0x0020), (0x0085, 0x0085), (0x00A0, 0x00A0), (0x1680, 0x1680),
    (0x2000, 0x200A), (0x2028, 0x2029), (0x202F, 0x202F), (0x205F, 0x205F), (0x3000, 0x3000)]

def holds (c : Char) : Bool :=
  ranges.any fun (first, last) => first ≤ c.toNat && c.toNat ≤ last

def skip (cs : List Char) : List Char := cs.dropWhile holds

end ExposureControl.Blank
