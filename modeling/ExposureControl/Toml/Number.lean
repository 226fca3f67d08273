import ExposureControl.Data.Document
import ExposureControl.Numeric.Decimal
import ExposureControl.Time.Calendar

/-!
# TOML numbers, dates and times

Integers in four bases, floating-point numbers, and dates and times of day.  Underscores may stand
between digits.  An integer fits 64 bits; a number too large for binary64 is refused.
-/

namespace ExposureControl.Toml

/-- Read the digits that follow a first one; an underscore needs a digit after it. -/
def readMoreDigits? (isDigit : Char → Bool) : List Char → Option (List Char × List Char)
  | [] => some ([], [])
  | '_' :: c :: rest =>
    if isDigit c then do
      let (digits, rest) ← readMoreDigits? isDigit rest
      return (c :: digits, rest)
    else none
  | c :: rest =>
    if isDigit c then do
      let (digits, rest) ← readMoreDigits? isDigit rest
      return (c :: digits, rest)
    else if c = '_' then none
    else some ([], c :: rest)

def readDigits? (isDigit : Char → Bool) : List Char → Option (List Char × List Char)
  | c :: rest =>
    if isDigit c then do
      let (digits, rest) ← readMoreDigits? isDigit rest
      return (c :: digits, rest)
    else none
  | [] => none

/-- Read decimal digits without a leading zero, unless it is the only digit. -/
def readWhole? : List Char → Option (List Char × List Char)
  | '0' :: rest => some (['0'], rest)
  | cs => readDigits? Digits.isDigit cs

def integer? (value : Int) : Option Document :=
  if Word64.signed value then some (.int value) else none

def valueIn (base : Nat) (digits : List Char) : Nat :=
  digits.foldl (fun n c => base * n + (Digits.hexValue? c).getD 0) 0

def readBased? (base : Nat) (isDigit : Char → Bool) (cs : List Char) :
    Option (Document × List Char) := do
  let (digits, rest) ← readDigits? isDigit cs
  return (← integer? (valueIn base digits), rest)

def readExponent? (cs : List Char) : Option (Int × List Char) := do
  let (negative, cs) := Decimal.readSign cs
  let (digits, rest) ← readDigits? Digits.isDigit cs
  let value : Int := Digits.toNat digits
  return (if negative then -value else value, rest)

def readOptionalExponent? : List Char → Option (Int × List Char)
  | 'e' :: rest => readExponent? rest
  | 'E' :: rest => readExponent? rest
  | cs => some (0, cs)

def floating? (negative : Bool) (whole fraction : List Char) (exponent : Int) : Option Document :=
  let value := Decimal.ofParts negative whole fraction exponent
  if value == Binary64.infinity then none else some (.float value)

def readDecimal? (negative : Bool) (cs : List Char) : Option (Document × List Char) := do
  let (whole, rest) ← readWhole? cs
  match rest with
  | '.' :: rest =>
    let (fraction, rest) ← readDigits? Digits.isDigit rest
    let (exponent, rest) ← readOptionalExponent? rest
    return (← floating? negative whole fraction exponent, rest)
  | rest =>
    if rest.head? = some 'e' || rest.head? = some 'E' then
      let (exponent, rest) ← readOptionalExponent? rest
      return (← floating? negative whole [] exponent, rest)
    else
      let value : Int := Digits.toNat whole
      return (← integer? (if negative then -value else value), rest)

def readNumber? (cs : List Char) : Option (Document × List Char) :=
  match cs with
  | '0' :: 'x' :: rest => readBased? 16 (fun c => (Digits.hexValue? c).isSome) rest
  | '0' :: 'o' :: rest => readBased? 8 (fun c => '0' ≤ c && c ≤ '7') rest
  | '0' :: 'b' :: rest => readBased? 2 (fun c => c = '0' || c = '1') rest
  | cs =>
    let (negative, cs) := Decimal.readSign cs
    match cs with
    | 'i' :: 'n' :: 'f' :: rest =>
      some (.float (if negative then Binary64.negInfinity else Binary64.infinity), rest)
    | 'n' :: 'a' :: 'n' :: rest => some (.float Binary64.undefined, rest)
    | cs => readDecimal? negative cs

/-! ## Dates and times -/

def readField? (count low high : Nat) (cs : List Char) : Option (Nat × List Char) :=
  let digits := cs.take count
  let value := Digits.toNat digits
  if digits.length = count && digits.all Digits.isDigit && low ≤ value && value ≤ high then
    some (value, cs.drop count)
  else none

def readChar? (expected : Char) : List Char → Option (List Char)
  | c :: rest => if c = expected then some rest else none
  | [] => none

def readDate? (cs : List Char) : Option (List Char) := do
  let (year, rest) ← readField? 4 0 9999 cs
  let rest ← readChar? '-' rest
  let (month, rest) ← readField? 2 1 12 rest
  let rest ← readChar? '-' rest
  let (day, rest) ← readField? 2 1 31 rest
  if (Date.mk year month day).exists? then some rest else none

def readFraction? : List Char → Option (List Char)
  | '.' :: rest =>
    let digits := rest.takeWhile Digits.isDigit
    if digits.isEmpty then none else some (rest.drop digits.length)
  | cs => some cs

def readTime? (cs : List Char) : Option (List Char) := do
  let (_, rest) ← readField? 2 0 23 cs
  let rest ← readChar? ':' rest
  let (_, rest) ← readField? 2 0 59 rest
  let rest ← readChar? ':' rest
  let (_, rest) ← readField? 2 0 60 rest
  readFraction? rest

def readOffset? : List Char → Option (List Char)
  | [] => some []
  | c :: rest =>
    if c = 'Z' || c = 'z' then some rest
    else if c = '+' || c = '-' then do
      let (_, rest) ← readField? 2 0 23 rest
      let rest ← readChar? ':' rest
      let (_, rest) ← readField? 2 0 59 rest
      return rest
    else some (c :: rest)

def readDateTail? (cs : List Char) : Option (List Char) :=
  match cs with
  | c :: rest =>
    if c = 'T' || c = 't' || c = ' ' then
      match readTime? rest with
      | some rest => readOffset? rest
      | none => some cs
    else some cs
  | [] => some []

def readStamp? (cs : List Char) : Option (Document × List Char) := do
  let rest ← match readDate? cs with
    | some rest => readDateTail? rest
    | none => readTime? cs
  return (.stamp (String.ofList (cs.take (cs.length - rest.length))), rest)

end ExposureControl.Toml
