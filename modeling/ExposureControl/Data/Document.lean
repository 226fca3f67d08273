import ExposureControl.Numeric.Binary64
import ExposureControl.Numeric.Word64

/-!
# Documents

A document is a value of a data format: the common ground of TOML settings, JSON input and JSON
reports.  Records are read from documents field by field; a missing field takes its default, a
field that nobody asks for is ignored, and a field of the wrong shape refuses the record.  What
counts as a record is a matter of the dialect that the document came in.
-/

namespace ExposureControl

/-- A value of a data format. -/
inductive Document
  | null
  | bool (value : Bool)
  | int (value : Int)
  | float (value : Float)
  | text (value : String)
  /-- A date or time, kept as it was written. -/
  | stamp (written : String)
  | list (items : List Document)
  | table (fields : List (String × Document))

namespace Document

instance : Inhabited Document := ⟨null⟩

def toBool? : Document → Option Bool
  | bool value => some value
  | _ => none

def toText? : Document → Option String
  | text value => some value
  | _ => none

/-- A signed 64-bit integer.  Fractional numbers are refused, even whole ones. -/
def toInt? : Document → Option Int
  | int value => if Word64.signed value then some value else none
  | _ => none

def toNat? : Document → Option Nat
  | int value => if Word64.unsigned value then some value.toNat else none
  | _ => none

def toFloat? : Document → Option Float
  | int value => some (Binary64.ofInt value)
  | float value => some value
  | _ => none

/-- A value that may be absent, where absence is written as null. -/
def toOption? {α : Type} (read : Document → Option α) : Document → Option (Option α)
  | null => some none
  | document => (read document).map some

def field? (name : String) (fields : List (String × Document)) : Option Document :=
  fields.lookup name

/-- Read a field that has a default. -/
def fieldOr {α : Type} (fields : List (String × Document)) (name : String) (default : α)
    (read : Document → Option α) : Option α :=
  match field? name fields with
  | none => some default
  | some document => read document

def required {α : Type} (fields : List (String × Document)) (name : String)
    (read : Document → Option α) : Option α :=
  (field? name fields).bind read

def ofOption {α : Type} (write : α → Document) : Option α → Document
  | none => null
  | some value => write value

def nat (n : Nat) : Document := int n

end Document

end ExposureControl
