import ExposureControl.Data.Blank
import ExposureControl.Numeric.Digits
import ExposureControl.Time.Calendar

/-!
# Written times and dates

Instants are written in RFC 3339, in UTC, with a fraction only when it is not zero and then in
three digits if they suffice and in six otherwise.  Years from 0 to 9999 have four digits; other
years carry a sign.
-/

namespace ExposureControl

namespace Date

def yearText (year : Int) : String :=
  if 0 ≤ year ∧ year ≤ 9999 then Digits.padded 4 year.toNat
  else (if year < 0 then "-" else "+") ++ Digits.padded 4 year.natAbs

def text (date : Date) : String :=
  yearText date.year ++ "-" ++ Digits.padded 2 date.month ++ "-" ++ Digits.padded 2 date.day

/-- Read a number: the longest run of at most `limit` digits. -/
def readNumber? (limit : Nat) (cs : List Char) : Option (Nat × List Char) :=
  let digits := (cs.takeWhile Digits.isDigit).take limit
  if digits.isEmpty then none else some (Digits.toNat digits, cs.drop digits.length)

/-- Read a year: up to four digits, or any number of digits after a sign. -/
def readYear? : List Char → Option (Int × List Char)
  | '-' :: rest => (readNumber? rest.length rest).map fun (n, rest) => (-(n : Int), rest)
  | '+' :: rest => (readNumber? rest.length rest).map fun (n, rest) => ((n : Int), rest)
  | cs => (readNumber? 4 cs).map fun (n, rest) => ((n : Int), rest)

def readHyphen? (cs : List Char) : Option (List Char) :=
  match Blank.skip cs with
  | '-' :: rest => some rest
  | _ => none

/-- Read a date in year-month-day order.  Blanks may stand around the parts, and leading zeros
may be missing. -/
def ofText? (text : String) : Option Date := do
  let (year, rest) ← readYear? (Blank.skip text.toList)
  let rest ← readHyphen? rest
  let (month, rest) ← readNumber? 2 (Blank.skip rest)
  let rest ← readHyphen? rest
  let (day, rest) ← readNumber? 2 (Blank.skip rest)
  let date : Date := ⟨year, month, day⟩
  if (Blank.skip rest).isEmpty && date.exists? && -262143 ≤ year && year ≤ 262142 then some date
  else none

end Date

def Day.text (day : Day) : String := (Date.ofDay day).text

namespace Instant

/-- The written fraction of a second: nothing, milliseconds or microseconds. -/
def fractionText (micros : Nat) : String :=
  if micros = 0 then ""
  else if micros % 1000 = 0 then "." ++ Digits.padded 3 (micros / 1000)
  else "." ++ Digits.padded 6 micros

/-- The RFC 3339 form of an instant. -/
def text (t : Instant) : String :=
  let micros := t.microsOfDay
  let seconds := micros / 1000000
  t.day.text ++ "T" ++ Digits.padded 2 (seconds / 3600) ++ ":" ++
    Digits.padded 2 (seconds / 60 % 60) ++ ":" ++ Digits.padded 2 (seconds % 60) ++
    fractionText (micros % 1000000) ++ "Z"

end Instant

end ExposureControl
