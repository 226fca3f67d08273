import ExposureControl.Numeric.Digits

/-!
# Identifiers

A universally unique identifier is a 128-bit number, written as 32 lower-case hexadecimal digits
in groups of 8, 4, 4, 4 and 12.  The library draws the identifiers of objects that it creates
itself from supplies instead, one supply for each kind of object.  A drawn identifier is its supply
and its serial number there, so it differs from every given one and from those of other supplies.

All identifiers share one space: one that was drawn for an arm may be used again for a preset, or
for a position that is put on record.
-/

namespace ExposureControl

/-- A universally unique identifier, by its 128-bit number. -/
structure Uuid where
  number : Nat
deriving DecidableEq, Repr

namespace Uuid

/-- The hyphenated lower-case form. -/
def text (uuid : Uuid) : String :=
  let digits := Digits.hex 32 uuid.number
  let group (start length : Nat) := String.ofList ((digits.drop start).take length)
  group 0 8 ++ "-" ++ group 8 4 ++ "-" ++ group 12 4 ++ "-" ++ group 16 4 ++ "-" ++ group 20 12

/-- Leave out what may stand around the hyphenated form: a pair of braces, or `urn:uuid:` in front
of it. -/
def unwrap (cs : List Char) : List Char :=
  if cs.length = 38 && cs.head? == some '\x7b' && cs.getLast? == some '\x7d' then
    (cs.drop 1).take 36
  else if cs.length = 45 && "urn:uuid:".toList.isPrefixOf cs then cs.drop 9
  else cs

/-- The digits of the hyphenated form, if hyphens and nothing else stand between its groups. -/
def groupedDigits? (cs : List Char) : Option (List Char) :=
  if cs.length = 36 && [8, 13, 18, 23].all fun i => cs[i]? == some '-' then
    some (cs.filter (· != '-'))
  else none

/-- Read the hyphenated form, which may be wrapped, or 32 digits without hyphens, which may not.
Digits may be of either case. -/
def ofText? (text : String) : Option Uuid :=
  let cs := text.toList
  let digits := (groupedDigits? (unwrap cs)).getD cs
  if digits.length = 32 then (Digits.hexToNat? digits).map Uuid.mk else none

end Uuid

/-- The supplies from which identifiers are drawn, by the objects that they were set up for. -/
inductive Supply
  | arms
  | decisions
  | positions
deriving DecidableEq, Repr

namespace Supply

def letter : Supply → Char
  | arms => 'a'
  | decisions => 'd'
  | positions => 'p'

def ofLetter? : Char → Option Supply
  | 'a' => some arms
  | 'd' => some decisions
  | 'p' => some positions
  | _ => none

end Supply

/-- An identifier: drawn from a supply, or given by the caller. -/
inductive Identifier (α : Type)
  /-- The one of a supply with this serial number, counted from 1. -/
  | drawn (supply : Supply) (serial : Nat)
  /-- An identifier that came from outside. -/
  | given (value : α)
deriving DecidableEq, Repr

namespace Identifier

/-- The written form: a drawn identifier is its supply's letter and its serial number. -/
def text {α : Type} (write : α → String) : Identifier α → String
  | drawn supply serial => String.singleton supply.letter ++ Digits.ofNat serial
  | given value => write value

/-- Read the written form of an identifier that has been drawn, where `drawn` is how many every
supply has given out.  The serial number has no leading zeros. -/
def ofDrawnText? {α : Type} (drawn : Supply → Nat) (text : String) : Option (Identifier α) :=
  match text.toList with
  | [] => none
  | letter :: digits => do
    let supply ← Supply.ofLetter? letter
    let serial := Digits.toNat digits
    if 1 ≤ serial && serial ≤ drawn supply && Digits.ofNat serial = String.ofList digits then
      some (.drawn supply serial)
    else none

end Identifier

/-- The identifier of an arm, a preset or a shadow position. -/
abbrev ObjectId := Identifier Uuid

namespace ObjectId

def text (id : ObjectId) : String := Identifier.text Uuid.text id

/-- Read an object's identifier: one that has been drawn, or a universally unique one. -/
def ofText? (drawn : Supply → Nat) (text : String) : Option ObjectId :=
  Identifier.ofDrawnText? drawn text <|> (Uuid.ofText? text).map .given

end ObjectId

/-- The identifier of a decision.  Those that are given are arbitrary texts. -/
abbrev DecisionId := Identifier String

namespace DecisionId

def text (id : DecisionId) : String := Identifier.text (fun name => name) id

/-- Read a decision's identifier: one that has been drawn, or else the text itself. -/
def ofText (drawn : Supply → Nat) (text : String) : DecisionId :=
  (Identifier.ofDrawnText? drawn text).getD (.given text)

end DecisionId

end ExposureControl
