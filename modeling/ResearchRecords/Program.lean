import ResearchRecords.Command.Run
import ResearchRecords.CommandLine.Invocation
import ResearchRecords.Logging.Settings

/-!
The program as a whole: from arguments and environment to an exit code and what is shown. Logging
never keeps a command from being carried out.
-/
namespace ResearchRecords.Program

open CommandLine (Invocation Usage)

/-- How the program ends. The error and the warning are lines on standard error. -/
structure Ending where
  exitCode : Nat
  output : String
  error : Option String
  warning : Option String
  deriving DecidableEq, Repr

def versionLine : String := "pass 0.1.0\n"

/-- Asking for help or for the version is no failure. -/
def usageEnding : Usage → Ending
  | .help => ⟨0, "", none, none⟩
  | .version => ⟨0, versionLine, none, none⟩
  | _ => ⟨2, "", none, none⟩

/-- A message followed by its causes. -/
def errorLine (message : String) (causes : List String) : String :=
  "Error: " ++ ": ".intercalate (message :: causes)

def logSettings (verbose : Bool) : Logging.Settings :=
  { Logging.Settings.default with
    level := if verbose then .debug else .warn
    filePrefix := "pass-cli" }

/-- The line that tells which setting of the log cannot be used. -/
def warningOf (env : Environment) (verbose : Bool) : Option String :=
  match (logSettings verbose).withEnvironment env with
  | .ok _ => none
  | .error fault => some ("Warning: ignoring logging environment: " ++ fault.message)

def connectError (invocation : Invocation) (fault : Config.Fault) : String :=
  let fault := CommandFault.config fault
  errorLine ("cannot connect to PASS at '" ++ invocation.config.baseUrl ++ "'")
    (fault.message :: fault.causes)

def endingOf (warning : Option String) (finish : Command.Finish σ) : Ending :=
  match finish.fault with
  | none => ⟨0, finish.sink.text, none, warning⟩
  | some fault => ⟨1, finish.sink.text, some (errorLine fault.message fault.causes), warning⟩

/-- Carries out what is asked for. It is none if a walk over all pages needs more steps. -/
def runInvocation (transport : Transport σ) (steps : Nat) (state : σ) (env : Environment)
    (invocation : Invocation) : Option Ending :=
  let warning := warningOf env invocation.verbose
  match Client.ofConfig invocation.config with
  | .error fault => some ⟨1, "", some (connectError invocation fault), warning⟩
  | .ok client =>
    (invocation.command.run transport steps client .unbounded state).map (endingOf warning)

/-- The environment with the file that is read before all else, if there is one. -/
def fullEnvironment (env : Environment) (file : Option String) : Environment :=
  (file.map env.addFile).getD env

def run (transport : Transport σ) (steps : Nat) (state : σ) (env : Environment)
    (file : Option String) (args : List String) : Option Ending :=
  let env := fullEnvironment env file
  match CommandLine.parse env args with
  | .error usage => some (usageEnding usage)
  | .ok invocation => runInvocation transport steps state env invocation

end ResearchRecords.Program
