import ResearchRecords.Environment
import ResearchRecords.Json.Layout
import ResearchRecords.Text.Decimal
import ResearchRecords.Text.Quoted
import ResearchRecords.Url.Parser

/-!
Connection settings: the address of the repository, a user with a password, and a time limit for
requests. A password is never shown.
-/
namespace ResearchRecords

structure Config where
  baseUrl : String
  user : Option String
  password : Option String
  timeoutSeconds : Option Nat
  deriving DecidableEq, Repr

namespace Config

inductive Fault
  | emptyAddress
  | address (text : String) (fault : Url.Fault)
  | timeout (text : String)
  deriving DecidableEq, Repr

def defaultUrl : String := "http://localhost:8080/"

def urlVariable : String := "PASS_CORE_URL"

def userVariable : String := "PASS_CORE_USER"

def passwordVariable : String := "PASS_CORE_PASSWORD"

def timeoutVariable : String := "PASS_CLIENT_TIMEOUT_SECS"

def Fault.cause : Fault → String
  | .emptyAddress => "PASS base URL cannot be empty"
  | .address _ (.otherScheme scheme) =>
    "PASS base URL must use http or https, got '" ++ scheme ++ "'"
  | .address text fault => "Invalid PASS base URL '" ++ text ++ "': " ++ fault.message
  | .timeout text =>
    timeoutVariable ++ " must be a whole number of seconds, got '" ++ text ++ "'"

def Fault.message (fault : Fault) : String := "Configuration error: " ++ fault.cause

/-- The address of the repository, if it can be used. -/
def url (config : Config) : Except Fault Url :=
  if Text.trim config.baseUrl = "" then .error .emptyAddress
  else (Url.parse config.baseUrl).mapError (.address config.baseUrl)

def validate (config : Config) : Except Fault Unit := do
  let _ ← config.url

/-- A user and a password, when both are given. -/
def credentials (config : Config) : Option (String × String) :=
  match config.user, config.password with
  | some user, some password => some (user, password)
  | _, _ => none

def timeoutOf (env : Environment) : Except Fault (Option Nat) :=
  match env.get? timeoutVariable with
  | none => .ok none
  | some text =>
    match Text.natural64? (Text.trim text) with
    | some seconds => .ok (some seconds)
    | none => .error (.timeout text)

def nonEmpty (s : Option String) : Option String := s.filter fun s => s ≠ ""

/-- The settings of an environment. An empty user or password is none. -/
def ofEnvironment (env : Environment) : Except Fault Config := do
  let timeoutSeconds ← timeoutOf env
  let config : Config :=
    { baseUrl := (env.get? urlVariable).getD defaultUrl
      user := nonEmpty (env.get? userVariable)
      password := nonEmpty (env.get? passwordVariable)
      timeoutSeconds }
  config.validate
  return config

/-- A line that shows all settings but the password. -/
def summary (config : Config) : String :=
  let timeout :=
    match config.timeoutSeconds with
    | none => "None"
    | some seconds => "Some(" ++ toString seconds ++ ")"
  "PassConfig \x7b base_url: " ++ Text.Quoted.encode config.baseUrl ++
    ", user: " ++ Text.Quoted.encodeOption config.user ++
    ", password: " ++ Text.Quoted.encodeOption (config.password.map fun _ => "<redacted>") ++
    ", timeout_secs: " ++ timeout ++ " \x7d"

open Json (Node Layout Value)

def layout : Layout Config where
  name := "PassConfig"
  fields :=
    [⟨"base_url", .always, fun _ node c => do return { c with baseUrl := ← node.string }⟩,
      ⟨"user", .never, fun _ node c => do
        return { c with user := ← Node.optional Node.string node }⟩,
      ⟨"password", .never, fun _ node c => do
        return { c with password := ← Node.optional Node.string node }⟩,
      ⟨"timeout_secs", .never, fun _ node c => do
        return { c with timeoutSeconds := ← Node.optional Node.unsigned64 node }⟩]
  blank := ⟨"", none, none, none⟩

def parse (text : String) : Except Json.Fault Config :=
  Json.readWith (layout.read Node.maxDepth) (Text.Utf8.encode text)

def value (config : Config) : Value :=
  .object
    [("base_url", .string config.baseUrl), ("password", .ofOption .string config.password),
      ("timeout_secs", .ofOption .natural config.timeoutSeconds),
      ("user", .ofOption .string config.user)]

end Config

end ResearchRecords
