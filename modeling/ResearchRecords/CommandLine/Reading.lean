import ResearchRecords.CommandLine.Flag

/-!
Reading arguments in one scope, from left to right. A flag that takes a value and has none attached
waits for the next argument, which may not look like a flag; it is settled when the next argument is
taken or the arguments end. After two dashes all arguments are operands.
-/
namespace ResearchRecords.CommandLine

structure Reading where
  given : List (Flag × List String)
  operands : List String
  pending : Option (Flag × Option String)
  operandsOnly : Bool
  deriving DecidableEq, Repr

/-- An argument by its form. -/
inductive Form
  | dashes
  | long (name : String) (value : Option String)
  | short (chars : List Char)
  | word

def Form.of (arg : String) : Form :=
  match arg.toList with
  | ['-', '-'] => .dashes
  | '-' :: '-' :: rest =>
    match rest.span (· != '=') with
    | (name, []) => .long (String.ofList name) none
    | (name, _ :: value) => .long (String.ofList name) (some (String.ofList value))
  | '-' :: c :: rest => .short (c :: rest)
  | _ => .word

namespace Reading

def start : Reading := ⟨[], [], none, false⟩

def has (r : Reading) (flag : Flag) : Bool := r.given.any (·.1 == flag)

/-- All values given for a flag. -/
def values (r : Reading) (flag : Flag) : List String :=
  (r.given.filter (·.1 == flag)).flatMap Prod.snd

def value? (r : Reading) (flag : Flag) : Option String := (r.values flag).head?

def valuesOf (flag : Flag) (value : String) : List String :=
  if flag.mayRepeat then (value.toList.splitOn ',').map String.ofList else [value]

/-- Takes a flag for given, with its value if it needs one. -/
def settle (r : Reading) (flag : Flag) (value : Option String) : Except Usage Reading :=
  if flag = .help then .error .help
  else if flag = .version then .error .version
  else if flag.isSwitch then
    if r.has flag then .error .repeated
    else .ok { r with given := r.given ++ [(flag, [])] }
  else
    match value with
    | none => .error .missingValue
    | some value =>
      if r.has flag ∧ ¬ flag.mayRepeat then .error .repeated
      else if ¬ flag.admits value then .error .badValue
      else .ok { r with given := r.given ++ [(flag, valuesOf flag value)] }

/-- Settles the flag that waits. -/
def resolve (r : Reading) : Except Usage Reading :=
  match r.pending with
  | none => .ok r
  | some (flag, value) => { r with pending := none }.settle flag value

/-- Whether a flag waits for the next argument. -/
def isWaiting (r : Reading) : Bool :=
  match r.pending with
  | some (_, none) => true
  | _ => false

/-- Gives a value to the flag that waits. -/
def fill (r : Reading) (value : String) : Reading :=
  { r with pending := r.pending.map fun p => (p.1, some value) }

def takeLong (scope : Scope) (r : Reading) (name : String) (value : Option String) :
    Except Usage Reading :=
  match scope.long? name with
  | none => .error .unknownArgument
  | some flag =>
    match flag.isSwitch, value with
    | true, some _ => .error .surplusValue
    | true, none => do (← r.resolve).settle flag none
    | false, some value => do (← r.resolve).settle flag (some value)
    | false, none => do return { ← r.resolve with pending := some (flag, none) }

def dropEquals : List Char → List Char
  | '=' :: rest => rest
  | s => s

/-- Switches in one argument; the first flag with a value has the rest of it for its value. -/
def takeShort (scope : Scope) (r : Reading) : List Char → Except Usage Reading
  | [] => .ok r
  | c :: rest =>
    match scope.short? c with
    | none => .error .unknownArgument
    | some flag => do
      let r ← r.resolve
      if flag.isSwitch then (← r.settle flag none).takeShort scope rest
      else if rest.isEmpty then return { r with pending := some (flag, none) }
      else r.settle flag (some (String.ofList (dropEquals rest)))

/-- Takes an operand, of which there may be too many. -/
def takeOperand (scope : Scope) (r : Reading) (arg : String) : Except Usage Reading :=
  if r.operands.length < scope.operandCount then do
    let r ← r.resolve
    return { r with operands := r.operands ++ [arg] }
  else if scope = .root ∧ ¬ (r.operandsOnly ∧ Scope.isCommand arg) then .error .unknownCommand
  else .error .unknownArgument

/-- Reads the arguments up to a command, which is given back with the arguments after it. -/
def read (scope : Scope) (r : Reading) :
    List String → Except Usage (Reading × Option (String × List String))
  | [] => .ok (r, none)
  | arg :: rest =>
    if r.operandsOnly then do (← r.takeOperand scope arg).read scope rest
    else if scope = .root ∧ ¬ r.isWaiting ∧ Scope.isCommand arg then .ok (r, some (arg, rest))
    else
      match Form.of arg with
      | .dashes => { r with operandsOnly := true }.read scope rest
      | .long name value => do (← r.takeLong scope name value).read scope rest
      | .short chars => do (← r.takeShort scope chars).read scope rest
      | .word =>
        if r.isWaiting then (r.fill arg).read scope rest
        else do (← r.takeOperand scope arg).read scope rest

end Reading

end ResearchRecords.CommandLine
