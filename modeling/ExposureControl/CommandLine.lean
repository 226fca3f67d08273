import ExposureControl.Json.Writer
import ExposureControl.Settings.Environment
import ExposureControl.Simulation.Report

/-!
# The command line

The program simulates a session and prints its report as JSON.  Flags may be written
`--name value` or `--name=value`, and those with a letter also `-n value`, `-nvalue` or
`-n=value`.  A value that begins with a hyphen has to be joined to its flag.
-/

namespace ExposureControl.CommandLine

open Simulation (Plan Report Failure)

/-- A flag that takes a value. -/
inductive Flag
  | config
  | seed
  | symbols
  | steps
  | degradeAfter
  | logLevel
deriving DecidableEq, Repr

namespace Flag

def name : Flag → String
  | config => "config"
  | seed => "seed"
  | symbols => "symbols"
  | steps => "steps"
  | degradeAfter => "degrade-after"
  | logLevel => "log-level"

def all : List Flag := [config, seed, symbols, steps, degradeAfter, logLevel]

def ofName? (name : String) : Option Flag := all.find? fun flag => flag.name == name

def ofLetter? : Char → Option Flag
  | 'c' => some config
  | 'l' => some logLevel
  | _ => none

/-- Whether the flag may be given more than once, so that its values add up. -/
def repeatable (flag : Flag) : Bool := flag = symbols

def usage (flag : Flag) : String :=
  let placeholder := match flag with
    | config => "CONFIG"
    | seed => "SEED"
    | symbols => "SYMBOLS"
    | steps => "STEPS"
    | degradeAfter => "DEGRADE_AFTER"
    | logLevel => "LOG_LEVEL"
  "--" ++ flag.name ++ " <" ++ placeholder ++ ">"

end Flag

/-- Why arguments are not understood. -/
inductive Misuse
  /-- No flag takes this argument. -/
  | unexpected (argument : String)
  /-- A flag stands without its value. -/
  | missingValue (flag : Flag)
  /-- A flag is given twice. -/
  | repeated (flag : Flag)
  /-- A value is not a number that 64 bits hold. -/
  | notANumber (flag : Flag) (value : String)
deriving DecidableEq, Repr

namespace Misuse

def numberFlaw (value : String) : String :=
  let digits := match value.toList with
    | '+' :: rest => rest
    | cs => cs
  if value.isEmpty then "cannot parse integer from empty string"
  else if digits.isEmpty || !digits.all Digits.isDigit then "invalid digit found in string"
  else "number too large to fit in target type"

def message : Misuse → String
  | unexpected argument => "unexpected argument '" ++ argument ++ "' found"
  | missingValue flag =>
    "a value is required for '" ++ flag.usage ++ "' but none was supplied"
  | repeated flag => "the argument '" ++ flag.usage ++ "' cannot be used multiple times"
  | notANumber flag value =>
    "invalid value '" ++ value ++ "' for '" ++ flag.usage ++ "': " ++ numberFlaw value

end Misuse

/-- What a caller asks for. -/
inductive Request
  /-- To be told about the flags. -/
  | help
  /-- To simulate a plan, with the settings of a file if one is named. -/
  | simulate (config : Option String) (plan : Plan)

/-- The values that were given to flags so far, and the flags themselves. -/
structure Given where
  config : Option String
  seed : Nat
  symbols : Option (List String)
  steps : Nat
  degradeAfter : Nat
  seen : List Flag

namespace Given

/-- Nothing given yet; the environment may name a settings file. -/
def nothing (environment : Settings.Environment) : Given where
  config := environment Settings.pathVariable
  seed := Plan.standard.seed
  symbols := none
  steps := Plan.standard.steps
  degradeAfter := Plan.standard.degradeAfter
  seen := []

def number (flag : Flag) (value : String) : Except Misuse Nat :=
  match Decimal.readNat64? value with
  | some n => .ok n
  | none => .error (.notANumber flag value)

def give (flag : Flag) (value : String) (given : Given) : Except Misuse Given := do
  if given.seen.contains flag && !flag.repeatable then throw (.repeated flag)
  let given := { given with seen := flag :: given.seen }
  match flag with
  | .config => return { given with config := some value }
  | .seed => return { given with seed := ← number flag value }
  | .symbols =>
    return { given with symbols := some (given.symbols.getD [] ++ value.splitOn ",") }
  | .steps => return { given with steps := ← number flag value }
  | .degradeAfter => return { given with degradeAfter := ← number flag value }
  | .logLevel => return given

def toRequest (given : Given) : Request :=
  .simulate given.config
    { seed := given.seed
      symbols := given.symbols.getD Plan.standard.symbols
      steps := given.steps
      degradeAfter := given.degradeAfter }

end Given

/-- One argument, read by its form. -/
inductive Argument
  | help
  /-- A flag whose value is joined to it, or is the next argument. -/
  | flag (flag : Flag) (joined : Option String)
  /-- Two hyphens, after which there are no flags. -/
  | stop
  /-- Anything else. -/
  | other

namespace Argument

def afterLetter : List Char → Option String
  | [] => none
  | '=' :: value => some (String.ofList value)
  | value => some (String.ofList value)

def splitLong (cs : List Char) : String × Option String :=
  let name := cs.takeWhile (· ≠ '=')
  match cs.drop name.length with
  | _ :: value => (String.ofList name, some (String.ofList value))
  | [] => (String.ofList name, none)

def ofText (text : String) : Argument :=
  match text.toList with
  | ['-', '-'] => stop
  | '-' :: '-' :: rest =>
    let (name, joined) := splitLong rest
    match Flag.ofName? name with
    | some found => flag found joined
    | none => if name = "help" && joined.isNone then help else other
  | '-' :: letter :: rest =>
    match Flag.ofLetter? letter with
    | some found => flag found (afterLetter rest)
    | none => if letter = 'h' then help else other
  | _ => other

/-- Whether an argument can be the value of the flag before it: it does not begin with a hyphen,
or is nothing but one. -/
def isValue (text : String) : Bool := text = "-" || text.toList.head? ≠ some '-'

end Argument

def readFrom (given : Given) : List String → Except Misuse Request
  | [] => .ok given.toRequest
  | argument :: rest =>
    match Argument.ofText argument with
    | .help => .ok .help
    | .stop =>
      match rest with
      | [] => .ok given.toRequest
      | extra :: _ => .error (.unexpected extra)
    | .other => .error (.unexpected argument)
    | .flag flag (some value) => do readFrom (← given.give flag value) rest
    | .flag flag none =>
      match rest with
      | [] => .error (.missingValue flag)
      | value :: rest =>
        if Argument.isValue value then do readFrom (← given.give flag value) rest
        else .error (.missingValue flag)

def read (environment : Settings.Environment) (arguments : List String) :
    Except Misuse Request :=
  readFrom (.nothing environment) arguments

/-- Simulate a plan with the settings of a file, if one is named; `file` is its text, if it
exists. -/
def carryOut (config : Option String) (file : Option String) (plan : Plan) :
    Except Failure Report :=
  match config with
  | none => Simulation.simulate plan {}
  | some _ =>
    match Settings.load file with
    | .error error => .error (.settings error)
    | .ok settings => Simulation.simulate plan settings

def exitCode : Failure → Nat
  | .settings _ => 1
  | .refused _ => 1
  | .fault _ => 101

def misuseCode : Nat := 2

def failureMessage (config : Option String) : Failure → String
  | .settings .missing => "reading governor config " ++ config.getD ""
  | .settings .malformed => "the settings file is not valid TOML for these settings"
  | .settings (.flawed flaw) => flaw.message
  | .refused refusal => refusal.message
  | .fault .spanTooLong => "a duration is too long"
  | .fault .timeOutOfRange => "a time leaves the representable years"
  | .fault .emptyClipRange => "a clip has its bounds in the wrong order"
  | .fault .windowTooLarge => "a trade window is too large"
  | .fault .counterOverflow => "a counter is full"

/-- What the program says about its flags. -/
def helpText : String :=
  "Replay a synthetic session through the execution governor\n\n" ++
  "Usage: governor_sim [OPTIONS]\n\n" ++
  "Options:\n" ++
  "  -c, --config <CONFIG>                Path to TOML configuration file " ++
  "[env: GOVERNOR_CONFIG_PATH=]\n" ++
  "      --seed <SEED>                    Seed for market noise and for the bandit " ++
  "when the config has none [default: 42]\n" ++
  "      --symbols <SYMBOLS>              Comma separated symbols [default: BTCUSDT,ETHUSDT]\n" ++
  "      --steps <STEPS>                  Decision steps per symbol [default: 300]\n" ++
  "      --degrade-after <DEGRADE_AFTER>  Step after which the live edge turns " ++
  "negative (0 = never) [default: 0]\n" ++
  "  -l, --log-level <LOG_LEVEL>          Log level (trace, debug, info, warn, " ++
  "error) [default: info]\n" ++
  "  -h, --help                           Print help\n"

def reportText (report : Report) : String := Json.write report.toDocument ++ "\n"

end ExposureControl.CommandLine
