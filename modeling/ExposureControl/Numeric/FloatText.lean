import ExposureControl.Numeric.Binary64
import ExposureControl.Numeric.Shortest

/-!
# Written numbers

A number is written with its shortest digits.  A notation decides where the point goes: settings
are always positional, reports switch to an exponent for very large and very small numbers.
-/

namespace ExposureControl

/-- How a finite number is laid out. -/
structure NumberStyle where
  /-- The least place of the point, counted from the first digit, that is written out. -/
  leastPoint : Option Int
  /-- The greatest place of the point that is written out. -/
  greatestPoint : Option Int

namespace NumberStyle

/-- Settings write every number out. -/
def settings : NumberStyle := ⟨none, none⟩

/-- Reports write out numbers from 0.00001 up to sixteen digits before the point. -/
def reports : NumberStyle := ⟨some (-4), some 16⟩

def positional (style : NumberStyle) (point : Int) : Bool :=
  style.leastPoint.all (fun least => decide (least ≤ point)) &&
    style.greatestPoint.all fun greatest => decide (point ≤ greatest)

def zeros (n : Nat) : List Char := List.replicate n '0'

/-- Digits with the point at a place, and at least one digit on either side of it. -/
def layOut (digits : List Char) (point : Int) : List Char :=
  if point ≤ 0 then ['0', '.'] ++ zeros point.natAbs ++ digits
  else if digits.length ≤ point.toNat then
    digits ++ zeros (point.toNat - digits.length) ++ ['.', '0']
  else digits.take point.toNat ++ ['.'] ++ digits.drop point.toNat

/-- Digits with an exponent; the point follows the first digit unless that is the only one. -/
def layOutExponent (digits : List Char) (point : Int) : List Char :=
  let mantissa := match digits with
    | [digit] => [digit]
    | first :: rest => first :: '.' :: rest
    | [] => []
  mantissa ++ ['e'] ++ (Digits.ofInt (point - 1)).toList

def magnitude (style : NumberStyle) (value : Float) : List Char :=
  if value == 0.0 then ['0', '.', '0']
  else
    let decimal := Shortest.ofBits value.abs.toBits
    let digits := Nat.toDigits 10 decimal.digits
    let point := decimal.exponent + digits.length
    if style.positional point then layOut digits point else layOutExponent digits point

def signed (value : Float) : Bool := value.toBits ≥ 0x8000000000000000

def finite (style : NumberStyle) (value : Float) : String :=
  (if signed value then "-" else "") ++ String.ofList (style.magnitude value)

end NumberStyle

end ExposureControl
