import ExposureControl.Data.Document

/-!
# Dialects

Documents of different origin agree on what a number or a text is, but not on the less usual
ways to give a record or a word: whether a list of values may be too long for a record, and which
value says nothing beside a word.
-/

namespace ExposureControl

/-- Where a document came from. -/
inductive Dialect
  /-- A settings file. -/
  | toml
  /-- A record that a caller hands over. -/
  | json
  /-- A record that a caller hands over and that names its form in one of its fields. -/
  | tagged
deriving DecidableEq, Repr

namespace Dialect

/-- Whether a list may be longer than the record that it is given for; what is left over is not
looked at. -/
def toleratesSurplus : Dialect → Bool
  | toml => true
  | json => false
  | tagged => false

/-- Whether a value says nothing. -/
def isVoid : Dialect → Document → Bool
  | toml, .table [] => true
  | toml, .list [] => true
  | json, .null => true
  | tagged, .null => true
  | tagged, .table [] => true
  | _, _ => false

/-- A word of a closed vocabulary: a text, or the name of a table's only field if that says
nothing. -/
def wordOf? (dialect : Dialect) : Document → Option String
  | .text value => some value
  | .table [(name, content)] => if dialect.isVoid content then some name else none
  | _ => none

/-- The fields that are given for a record whose fields are, in order, `names`.  A record may also
be given as a list of its leading fields' values, and a date or time stands for a record of which
no field is given. -/
def fieldsOf? (dialect : Dialect) (names : List String) :
    Document → Option (List (String × Document))
  | .table fields => some fields
  | .stamp _ => some []
  | .list items =>
    if dialect.toleratesSurplus || items.length ≤ names.length then some (names.zip items)
    else none
  | _ => none

end Dialect

end ExposureControl
