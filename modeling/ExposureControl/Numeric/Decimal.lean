import ExposureControl.Numeric.Binary64
import ExposureControl.Numeric.Digits
import ExposureControl.Numeric.Word64

/-!
# Reading decimals

Decimal notation, read to the nearest binary64 value.  This module holds the plain notation used
in the environment; the data formats share its rounding and bring grammars of their own.
-/

namespace ExposureControl.Decimal

/-- The binary64 value nearest to `mantissa · 10 ^ exponent`, with a sign.  Exponents far outside
the range are settled by the number of digits alone. -/
def nearest (negative : Bool) (mantissa : Nat) (exponent : Int) : Float :=
  let magnitude := exponent + (Nat.toDigits 10 mantissa).length
  let value :=
    if mantissa = 0 || magnitude < -400 then 0.0
    else if magnitude > 400 then Binary64.infinity
    else Float.ofScientific mantissa (exponent < 0) exponent.natAbs
  if negative then -value else value

def ofParts (negative : Bool) (whole fraction : List Char) (exponent : Int) : Float :=
  nearest negative (Digits.toNat (whole ++ fraction)) (exponent - fraction.length)

/-- Split off a sign; true means minus. -/
def readSign : List Char → Bool × List Char
  | '-' :: rest => (true, rest)
  | '+' :: rest => (false, rest)
  | cs => (false, cs)

/-- Read the whole of a text as an exponent part, which may be missing. -/
def readExponent? : List Char → Option Int
  | [] => some 0
  | c :: rest =>
    if c = 'e' || c = 'E' then
      let (negative, digits) := readSign rest
      if digits.isEmpty || !digits.all Digits.isDigit then none
      else if negative then some (-(Digits.toNat digits : Int)) else some (Digits.toNat digits)
    else none

/-- The words for values that are not finite, in any case. -/
def readWord? (negative : Bool) (word : String) : Option Float :=
  if word = "nan" then some Binary64.undefined
  else if word = "inf" || word = "infinity" then
    some (if negative then Binary64.negInfinity else Binary64.infinity)
  else none

/-- Read a number without its sign: digits around an optional point, at least one in all, and an
optional exponent. -/
def readUnsigned? (negative : Bool) (cs : List Char) : Option Float := do
  let whole := cs.takeWhile Digits.isDigit
  let rest := cs.drop whole.length
  let (fraction, rest) := match rest with
    | '.' :: rest =>
      let fraction := rest.takeWhile Digits.isDigit
      (fraction, rest.drop fraction.length)
    | _ => ([], rest)
  if whole.isEmpty && fraction.isEmpty then none
  else return ofParts negative whole fraction (← readExponent? rest)

/-- Read a number in plain decimal notation, such as `.5`, `5.`, `+1e-3`, `inf` or `nan`. -/
def readFloat? (text : String) : Option Float :=
  let (negative, cs) := readSign text.toList
  match readWord? negative (String.ofList (cs.map Char.toLower)) with
  | some value => some value
  | none => readUnsigned? negative cs

/-- Read an unsigned 64-bit number: digits after an optional plus sign. -/
def readNat64? (text : String) : Option Nat :=
  let digits := match text.toList with
    | '+' :: rest => rest
    | cs => cs
  if digits.isEmpty || !digits.all Digits.isDigit then none
  else
    let n := Digits.toNat digits
    if Word64.unsigned n then some n else none

/-- Read a truth value, which has exactly two spellings. -/
def readBool? : String → Option Bool
  | "true" => some true
  | "false" => some false
  | _ => none

end ExposureControl.Decimal
