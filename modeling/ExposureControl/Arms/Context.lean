import ExposureControl.Data.Table
import ExposureControl.Numeric.Binary64

/-!
# Selection contexts

Features that a caller attaches to a selection.  They are kept with the decision and do not
influence it.
-/

namespace ExposureControl

/-- The value of a feature. -/
inductive Feature
  | number (value : Float)
  | text (value : String)

/-- Features by name. -/
structure Context where
  features : Table String Feature

namespace Context

def empty : Context := ⟨.empty⟩

/-- Set a numeric feature.  A number that is not finite is dropped, and an earlier value of the
feature stays. -/
def withNumber (name : String) (value : Float) (context : Context) : Context :=
  if value.isFinite then ⟨context.features.insert name (.number value)⟩ else context

def withText (name value : String) (context : Context) : Context :=
  ⟨context.features.insert name (.text value)⟩

def get? (name : String) (context : Context) : Option Feature := context.features.find? name

def size (context : Context) : Nat := context.features.size

end Context

end ExposureControl
