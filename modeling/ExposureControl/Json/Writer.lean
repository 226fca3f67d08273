import ExposureControl.Data.Document
import ExposureControl.Numeric.FloatText

/-!
# Writing JSON

A document is written with one field or item to a line, indented by two blanks a level.  Numbers
that are not finite have no written form in JSON and become null.
-/

namespace ExposureControl.Json

def writeChar (c : Char) : List Char :=
  if c = '"' then ['\\', '"']
  else if c = '\\' then ['\\', '\\']
  else if c = '\n' then ['\\', 'n']
  else if c = '\t' then ['\\', 't']
  else if c = '\r' then ['\\', 'r']
  else if c.toNat = 0x08 then ['\\', 'b']
  else if c.toNat = 0x0C then ['\\', 'f']
  else if c.toNat < 0x20 then ['\\', 'u'] ++ Digits.hex 4 c.toNat
  else [c]

def writeText (text : String) : String :=
  String.ofList (['"'] ++ text.toList.flatMap writeChar ++ ['"'])

def writeFloat (value : Float) : String :=
  if value.isFinite then NumberStyle.finite .reports value else "null"

def lineBreak (level : Nat) : String :=
  "\n" ++ String.ofList (List.replicate (2 * level) ' ')

/-- Elements in brackets, on lines of their own. -/
def writeBlock (left right : String) (level : Nat) (elements : List String) : String :=
  if elements.isEmpty then left ++ right
  else
    left ++ lineBreak (level + 1) ++ ("," ++ lineBreak (level + 1)).intercalate elements ++
      lineBreak level ++ right

mutual

def writeAt (level : Nat) : Document → String
  | .null => "null"
  | .bool value => if value then "true" else "false"
  | .int value => Digits.ofInt value
  | .float value => writeFloat value
  | .text value => writeText value
  | .stamp written => writeText written
  | .list items => writeBlock "[" "]" level (writeItems (level + 1) items)
  | .table fields => writeBlock "\x7b" "\x7d" level (writeFields (level + 1) fields)

def writeItems (level : Nat) : List Document → List String
  | [] => []
  | item :: rest => writeAt level item :: writeItems level rest

def writeFields (level : Nat) : List (String × Document) → List String
  | [] => []
  | (name, value) :: rest =>
    (writeText name ++ ": " ++ writeAt level value) :: writeFields level rest

end

def write (document : Document) : String := writeAt 0 document

end ExposureControl.Json
