import ExposureControl.Settings.Record
import ExposureControl.Settings.Validity
import ExposureControl.Toml.Reader
import ExposureControl.Toml.Writer

/-!
# The settings file

Settings are kept in a TOML file.  Loading refuses a file that is missing, that is not TOML or
holds a value of the wrong type, or whose settings have a flaw.
-/

namespace ExposureControl.Settings

/-- Why settings cannot be loaded. -/
inductive LoadError
  /-- There is no such file. -/
  | missing
  /-- The text is not TOML, or a value does not fit its field. -/
  | malformed
  /-- The settings have a flaw. -/
  | flawed (flaw : Flaw)
deriving DecidableEq, Repr

def parse? (text : String) : Option Settings :=
  (Toml.read? text).bind (ofDocument? .toml)

def load (file : Option String) : Except LoadError Settings :=
  match file with
  | none => .error .missing
  | some text =>
    match parse? text with
    | none => .error .malformed
    | some settings =>
      match settings.flaw? with
      | some flaw => .error (.flawed flaw)
      | none => .ok settings

/-- The text of a settings file.  There is none if a count exceeds 63 bits. -/
def save? (settings : Settings) : Option String :=
  Toml.write? settings.toDocument

end ExposureControl.Settings
