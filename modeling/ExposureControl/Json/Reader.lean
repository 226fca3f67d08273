import ExposureControl.Data.Document
import ExposureControl.Data.Table
import ExposureControl.Numeric.Decimal

/-!
# Reading JSON

A JSON text is read as a document.  A number without fraction and exponent is an integer if 64
bits hold it, and every other number a floating-point one.

In two points this reader is more definite than JSON.  A floating-point number is the one nearest to
the decimal, where another reader may be off in the last place if there are many digits.  Where a
name occurs twice in an object its last value counts, where a reader that fills records directly
may refuse the text.  Neither occurs in texts that the program writes: their numbers have as few
digits as tell them apart, and no name twice.
-/

namespace ExposureControl.Json

/-! ## Lexical elements -/

/-- Blanks and line breaks between elements. -/
def isBlank (c : Char) : Bool := c = ' ' || c = '\t' || c = '\n' || c = '\r'

def skipBlanks (cs : List Char) : List Char := cs.dropWhile isBlank

def readUnit? (cs : List Char) : Option (Nat × List Char) := do
  let digits := cs.take 4
  let unit ← Digits.hexToNat? digits
  if digits.length = 4 then some (unit, cs.drop 4) else none

/-- Read the code units after a backslash and a `u`.  A high surrogate must be followed by the
escape of a low one. -/
def readCodePoint? (cs : List Char) : Option (Char × List Char) := do
  let (high, rest) ← readUnit? cs
  if high < 0xD800 || 0xE000 ≤ high then return (Char.ofNat high, rest)
  else if 0xDC00 ≤ high then none
  else
    match rest with
    | '\\' :: 'u' :: rest => do
      let (low, rest) ← readUnit? rest
      if 0xDC00 ≤ low && low < 0xE000 then
        return (Char.ofNat (0x10000 + (high - 0xD800) * 0x400 + (low - 0xDC00)), rest)
      else none
    | _ => none

def readEscape? : List Char → Option (Char × List Char)
  | '"' :: rest => some ('"', rest)
  | '\\' :: rest => some ('\\', rest)
  | '/' :: rest => some ('/', rest)
  | 'b' :: rest => some (Char.ofNat 0x08, rest)
  | 'f' :: rest => some (Char.ofNat 0x0C, rest)
  | 'n' :: rest => some ('\n', rest)
  | 'r' :: rest => some ('\r', rest)
  | 't' :: rest => some ('\t', rest)
  | 'u' :: rest => readCodePoint? rest
  | _ => none

def readBody? : (fuel : Nat) → List Char → Option (List Char × List Char)
  | 0, _ => none
  | _, [] => none
  | fuel + 1, c :: rest =>
    if c = '"' then some ([], rest)
    else if c = '\\' then do
      let (escaped, rest) ← readEscape? rest
      let (body, rest) ← readBody? fuel rest
      return (escaped :: body, rest)
    else if c.toNat < 0x20 then none
    else do
      let (body, rest) ← readBody? fuel rest
      return (c :: body, rest)

def readString? : List Char → Option (String × List Char)
  | '"' :: rest => (readBody? (rest.length + 1) rest).map fun (body, rest) =>
      (String.ofList body, rest)
  | _ => none

/-! ## Numbers -/

def readDigits? (cs : List Char) : Option (List Char × List Char) :=
  let digits := cs.takeWhile Digits.isDigit
  if digits.isEmpty then none else some (digits, cs.drop digits.length)

/-- Read the digits before the point, which begin with a zero only if that is all of them. -/
def readWhole? (cs : List Char) : Option (List Char × List Char) := do
  let (digits, rest) ← readDigits? cs
  if 1 < digits.length && digits.head? = some '0' then none else some (digits, rest)

def readFraction? : List Char → Option (Option (List Char) × List Char)
  | '.' :: rest => (readDigits? rest).map fun (digits, rest) => (some digits, rest)
  | cs => some (none, cs)

def readExponent? : List Char → Option (Option Int × List Char)
  | c :: rest =>
    if c = 'e' || c = 'E' then do
      let (negative, rest) := Decimal.readSign rest
      let (digits, rest) ← readDigits? rest
      let exponent : Int := Digits.toNat digits
      return (some (if negative then -exponent else exponent), rest)
    else some (none, c :: rest)
  | [] => some (none, [])

/-- The number of digits without fraction and exponent: an integer if 64 bits hold it.  A negative
zero has no integer. -/
def wholeNumber (negative : Bool) (digits : List Char) : Document :=
  let n := Digits.toNat digits
  if !negative && Word64.unsigned n then .int n
  else if negative && 0 < n && Word64.signed (-n) then .int (-n)
  else .float (Decimal.ofParts negative digits [] 0)

/-- Read a number.  Numbers beyond the range of binary64 are refused. -/
def readNumber? (cs : List Char) : Option (Document × List Char) := do
  let (negative, cs) := match cs with
    | '-' :: rest => (true, rest)
    | cs => (false, cs)
  let (whole, rest) ← readWhole? cs
  let (fraction, rest) ← readFraction? rest
  let (exponent, rest) ← readExponent? rest
  let document := match fraction, exponent with
    | none, none => wholeNumber negative whole
    | _, _ => .float (Decimal.ofParts negative whole (fraction.getD []) (exponent.getD 0))
  match document with
  | .float value => if value.isFinite then return (document, rest) else none
  | _ => return (document, rest)

/-! ## Values -/

def readItems? (item : List Char → Option (Document × List Char)) :
    (fuel : Nat) → List Char → Option (List Document × List Char)
  | 0, _ => none
  | fuel + 1, cs => do
    let (document, rest) ← item (skipBlanks cs)
    match skipBlanks rest with
    | ',' :: rest =>
      let (documents, rest) ← readItems? item fuel rest
      return (document :: documents, rest)
    | ']' :: rest => return ([document], rest)
    | _ => none

def readMembers? (value : List Char → Option (Document × List Char)) :
    (fuel : Nat) → List Char → Option (List (String × Document) × List Char)
  | 0, _ => none
  | fuel + 1, cs => do
    let (name, rest) ← readString? (skipBlanks cs)
    match skipBlanks rest with
    | ':' :: rest =>
      let (document, rest) ← value (skipBlanks rest)
      match skipBlanks rest with
      | ',' :: rest =>
        let (members, rest) ← readMembers? value fuel rest
        return ((name, document) :: members, rest)
      | '\x7d' :: rest => return ([(name, document)], rest)
      | _ => none
    | _ => none

def readList? (item : List Char → Option (Document × List Char)) (cs : List Char) :
    Option (Document × List Char) :=
  match skipBlanks cs with
  | ']' :: rest => some (.list [], rest)
  | cs => (readItems? item (cs.length + 1) cs).map fun (items, rest) => (.list items, rest)

def readTable? (value : List Char → Option (Document × List Char)) (cs : List Char) :
    Option (Document × List Char) :=
  match skipBlanks cs with
  | '\x7d' :: rest => some (.table [], rest)
  | cs => (readMembers? value (cs.length + 1) cs).map fun (members, rest) =>
      (.table (Table.ofList members).entries, rest)

/-- Read a value with at most `depth` levels of brackets and braces. -/
def readValue? : (depth : Nat) → List Char → Option (Document × List Char)
  | depth, cs =>
    match cs with
    | '"' :: _ => (readString? cs).map fun (text, rest) => (.text text, rest)
    | '[' :: rest =>
      match depth with
      | 0 => none
      | depth + 1 => readList? (readValue? depth) rest
    | '\x7b' :: rest =>
      match depth with
      | 0 => none
      | depth + 1 => readTable? (readValue? depth) rest
    | 't' :: 'r' :: 'u' :: 'e' :: rest => some (.bool true, rest)
    | 'f' :: 'a' :: 'l' :: 's' :: 'e' :: rest => some (.bool false, rest)
    | 'n' :: 'u' :: 'l' :: 'l' :: rest => some (.null, rest)
    | cs => readNumber? cs

def maxDepth : Nat := 127

/-- Read a JSON text, which is one value. -/
def read? (text : String) : Option Document := do
  let (document, rest) ← readValue? maxDepth (skipBlanks text.toList)
  if (skipBlanks rest).isEmpty then some document else none

end ExposureControl.Json
