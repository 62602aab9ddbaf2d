import ResearchRecords.Command.Basic
import ResearchRecords.CommandLine.Reading

/-!
What a command line asks for: a command, and the settings under which it is carried out. A setting
is looked for after the command, then before it, then in the environment.
-/
namespace ResearchRecords.CommandLine

structure Invocation where
  command : Command
  verbose : Bool
  config : Config
  deriving DecidableEq, Repr

/-- The number of seconds in the environment must be one, unless the flag is given in this scope. -/
def checkEnvironment (env : Environment) (r : Reading) : Except Usage Unit :=
  match env.get? Config.timeoutVariable with
  | none => .ok ()
  | some text => if r.has .timeout ∨ Flag.timeout.admits text then .ok () else .error .badValue

def finish (env : Environment) (r : Reading) : Except Usage Reading := do
  let r ← r.resolve
  checkEnvironment env r
  return r

def setsAny (env : Environment) : Bool :=
  [Config.urlVariable, Config.userVariable, Config.passwordVariable, Config.timeoutVariable].any
    fun name => (env.get? name).isSome

/-- Without a command there is nothing to do; without anything at all help is shown. -/
def refuseRoot (env : Environment) (root : Reading) : Except Usage Invocation := do
  let root ← finish env root
  if root.given.isEmpty ∧ ¬ setsAny env then throw .noArguments else throw .noCommand

/-- Help may be asked for about a command. -/
def refuseHelp : List String → Except Usage Invocation
  | [] => .error .help
  | [name] => .error (if Scope.isCommand name then .help else .unknownCommand)
  | _ => .error .unknownCommand

def setting? (env : Environment) (root own : Reading) (flag : Flag) (name : String) :
    Option String :=
  (own.value? flag).or ((root.value? flag).or (env.get? name))

def configOf (env : Environment) (root own : Reading) : Config where
  baseUrl := (setting? env root own .url Config.urlVariable).getD Config.defaultUrl
  user := setting? env root own .user Config.userVariable
  password := setting? env root own .password Config.passwordVariable
  timeoutSeconds :=
    (setting? env root own .timeout Config.timeoutVariable).bind Text.natural64?

def number (r : Reading) (flag : Flag) (default : Nat) : Nat :=
  ((r.value? flag).bind Text.natural64?).getD default

def optionsOf (r : Reading) : SelectOptions where
  filter := r.value? .filter
  sorting := r.value? .sorting
  including := r.values .including
  offset := number r .offset 0
  limit := number r .limit Selector.defaultLimit
  all := r.has .all

def commandOf (scope : Scope) (r : Reading) : Except Usage Command :=
  match scope, r.operands with
  | .get, [kind, id] => .ok (.get kind id (r.values .including))
  | .select, [kind] => .ok (.select kind (optionsOf r))
  | .delete, [kind, id] => .ok (.delete kind id)
  | _, _ => .error .missingOperand

def readCommand (env : Environment) (root : Reading) (scope : Scope) (args : List String) :
    Except Usage Invocation := do
  let (own, _) ← Reading.start.read scope args
  let own ← finish env own
  let command ← commandOf scope own
  let root ← finish env root
  return ⟨command, root.has .verbose || own.has .verbose, configOf env root own⟩

/-- What the arguments ask for. -/
def parse (env : Environment) (args : List String) : Except Usage Invocation := do
  let (root, command) ← Reading.start.read .root args
  match command with
  | none => refuseRoot env root
  | some (name, rest) =>
    match Scope.ofName? name with
    | none => refuseHelp rest
    | some scope => readCommand env root scope rest

end ResearchRecords.CommandLine
