import ResearchRecords.Program

/-!
The command line program. It knows no network, so each request fails when it is to be connected.
-/
namespace ResearchRecords.Program

/-- The variables that matter to the program. -/
def variableNames : List String :=
  [Config.urlVariable, Config.userVariable, Config.passwordVariable, Config.timeoutVariable,
    "LOG_LEVEL", "LOG_OUTPUT", "LOG_FORMAT", "LOG_DIR", "LOG_FILTER", "LOG_INCLUDE_TARGETS"]

def readEnvironment : IO Environment := do
  let bindings ← variableNames.filterMapM fun name => do
    return (← IO.getEnv name).map fun value => (name, value)
  return ⟨bindings⟩

def readSettingsFile : IO (Option String) := do
  try return some (← IO.FS.readFile ".env") catch _ => return none

end ResearchRecords.Program

open ResearchRecords

def main (args : List String) : IO UInt32 := do
  let env ← Program.readEnvironment
  let file ← Program.readSettingsFile
  match Program.run Transport.offline 1 () env file args with
  | none => return 1
  | some ending =>
    for line in ending.warning.toList ++ ending.error.toList do
      IO.eprintln line
    IO.print ending.output
    return UInt32.ofNat ending.exitCode
