import ExposureControl.Data.Document
import ExposureControl.Numeric.FloatText

/-!
# Writing TOML

A table is written as its plain entries under its header, followed by its subtables with headers
of their own, with a blank line between blocks.  Absent values are left out; integers beyond 64
signed bits, and lists, have no written form here.
-/

namespace ExposureControl.Toml

def writeFloat (value : Float) : String :=
  let sign := if NumberStyle.signed value then "-" else ""
  if value.isNaN then sign ++ "nan"
  else if value.isInf then sign ++ "inf"
  else NumberStyle.finite .settings value

def writeChar (c : Char) : List Char :=
  if c = '"' then ['\\', '"']
  else if c = '\\' then ['\\', '\\']
  else if c = '\n' then ['\\', 'n']
  else if c = '\t' then ['\\', 't']
  else if c = '\r' then ['\\', 'r']
  else if c.toNat < 0x20 || c.toNat = 0x7F then ['\\', 'u'] ++ Digits.hex 4 c.toNat
  else [c]

def writeText (text : String) : String :=
  String.ofList (['"'] ++ text.toList.flatMap writeChar ++ ['"'])

def writePlain? : Document → Option String
  | .bool value => some (if value then "true" else "false")
  | .int value =>
    if Word64.signed value then some (Digits.ofInt value) else none
  | .float value => some (writeFloat value)
  | .text value => some (writeText value)
  | .stamp written => some written
  | _ => none

def writeEntries? : List (String × Document) → Option String
  | [] => some ""
  | (_, .null) :: rest => writeEntries? rest
  | (_, .table _) :: rest => writeEntries? rest
  | (key, document) :: rest => do
    let value ← writePlain? document
    let lines ← writeEntries? rest
    return key ++ " = " ++ value ++ "\n" ++ lines

mutual

/-- The blocks of a table at a path: its own, if it has plain entries or is empty, and then those
of its subtables. -/
def writeBlocks? (path : List String) : Document → Option (List String)
  | .table fields => do
    let entries ← writeEntries? fields
    let below ← writeSubtables? path fields
    let header := if path.isEmpty then "" else "[" ++ ".".intercalate path ++ "]\n"
    if entries.isEmpty && (path.isEmpty || !below.isEmpty) then return below
    else return (header ++ entries) :: below
  | _ => none

def writeSubtables? (path : List String) : List (String × Document) → Option (List String)
  | [] => some []
  | (key, document) :: rest => do
    let below ← match document with
      | .table fields => writeBlocks? (path ++ [key]) (.table fields)
      | _ => some []
    return below ++ (← writeSubtables? path rest)

end

def write? (document : Document) : Option String := do
  return "\n".intercalate (← writeBlocks? [] document)

end ExposureControl.Toml
