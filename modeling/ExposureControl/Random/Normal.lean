import ExposureControl.Random.Generator
import ExposureControl.Random.ZigguratTables

/-!
# Normal draws

Standard normal draws by the ziggurat method.  A draw may reject words and try again; the number
of attempts is bounded by fuel, and a draw that runs out of it yields zero.  On random words an
attempt fails with a chance of less than one tenth, in the tail as elsewhere, so that the chance to
run out is below `10 ^ -4096`.  What is proved about choices holds whatever the draws yield, so it
does not depend on what stands in for a draw that would never end.
-/

namespace ExposureControl

namespace Ziggurat

def attempts : Nat := 4096

/-- A draw from the tail beyond its start; `negative` says which tail. -/
def tail (negative : Bool) : (fuel : Nat) → Generator → Float × Generator
  | 0, generator => (0.0, generator)
  | fuel + 1, generator =>
    let (u, generator) := generator.openUnit
    let (v, generator) := generator.openUnit
    let x := u.log / tailStart
    let y := v.log
    if -2.0 * y < x * x then tail negative fuel generator
    else (if negative then x - tailStart else tailStart - x, generator)

/-- A standard normal draw: pick a layer and a point in it, and accept the point if it surely or
actually lies under the curve. -/
def draw : (fuel : Nat) → Generator → Float × Generator
  | 0, generator => (0.0, generator)
  | fuel + 1, generator =>
    let (bits, generator) := generator.next
    let layer := (bits &&& 255).toNat
    let u := 2.0 * ((bits >>> 11).toFloat / 9007199254740992.0) - 1.0
    let x := u * edges.getD layer 0.0
    if x.abs < edges.getD (layer + 1) 0.0 then (x, generator)
    else if layer = 0 then tail (u < 0.0) attempts generator
    else
      let low := heights.getD layer 0.0
      let high := heights.getD (layer + 1) 0.0
      let (height, generator) := generator.unit
      if high + (low - high) * height < (-x * x / 2.0).exp then (x, generator)
      else draw fuel generator

end Ziggurat

namespace Generator

def standardNormal (generator : Generator) : Float × Generator :=
  Ziggurat.draw Ziggurat.attempts generator

/-- A normal draw of the given mean and deviation.  There is no such distribution, and nothing is
drawn, if either is undefined or the deviation is not positive. -/
def normal? (mean deviation : Float) (generator : Generator) : Option (Float × Generator) :=
  if mean.isNaN || deviation.isNaN || deviation ≤ 0.0 then none
  else
    let (z, generator) := generator.standardNormal
    some (mean + deviation * z, generator)

end Generator

end ExposureControl
