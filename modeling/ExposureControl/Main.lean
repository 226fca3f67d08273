import ExposureControl.CommandLine

/-!
# The program

Reads the arguments, the environment and the settings file, and prints the report.
-/

namespace ExposureControl.CommandLine

def readText? (path : String) : IO (Option String) := do
  try
    return some (← IO.FS.readFile path)
  catch _ =>
    return none

def complain (text : String) : IO Unit := do
  (← IO.getStderr).putStr text

/-- Simulate a plan and print the report; the exit code tells of failures. -/
def printReport (config : Option String) (plan : Simulation.Plan) : IO UInt32 := do
  let file ← match config with
    | some path => readText? path
    | none => pure none
  match carryOut config file plan with
  | .ok report =>
    IO.print (reportText report)
    return 0
  | .error failure =>
    complain ("Error: " ++ failureMessage config failure ++ "\n")
    return (exitCode failure).toUInt32

def serve (environment : Settings.Environment) (arguments : List String) : IO UInt32 := do
  match read environment arguments with
  | .ok .help =>
    IO.print helpText
    return 0
  | .ok (.simulate config plan) => printReport config plan
  | .error misuse =>
    complain ("error: " ++ misuse.message ++ "\n\nFor more information, try '--help'.\n")
    return misuseCode.toUInt32

end ExposureControl.CommandLine

def main (arguments : List String) : IO UInt32 := do
  let path ← IO.getEnv ExposureControl.Settings.pathVariable
  ExposureControl.CommandLine.serve
    (fun name => if name = ExposureControl.Settings.pathVariable then path else none) arguments
