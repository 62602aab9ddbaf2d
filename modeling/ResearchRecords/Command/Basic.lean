import ResearchRecords.Client.Fault
import ResearchRecords.Config
import ResearchRecords.Selector

/-!
The commands of the command line, and why they fail. Kinds are given by name, and a name that is
none fails when the command is carried out.
-/
namespace ResearchRecords

structure SelectOptions where
  filter : Option String
  sorting : Option String
  including : List String
  offset : Nat
  limit : Nat
  all : Bool
  deriving DecidableEq, Repr

inductive Command
  | get (kind : String) (id : String) (including : List String)
  | select (kind : String) (options : SelectOptions)
  | delete (kind : String) (id : String)
  deriving DecidableEq, Repr

/-- The selection of the first page. -/
def SelectOptions.selector (options : SelectOptions) (kind : Kind) : Selector :=
  ⟨kind, options.offset, options.limit, options.filter, options.sorting, options.including⟩

inductive CommandFault
  | notFound (kind : Kind) (id : String)
  | client (fault : ClientFault)
  | config (fault : Config.Fault)
  | unknownKind (name : String)
  | output (cause : String)
  | render (cause : String)
  deriving DecidableEq, Repr

namespace CommandFault

def knownKinds : String := ", ".intercalate (Kind.all.map Kind.name)

def message : CommandFault → String
  | .notFound kind id =>
    kind.name ++ " '" ++ id ++ "' not found. Check the id, or list candidates with 'pass select " ++
      kind.name ++ "'."
  | .client fault => fault.message
  | .config fault =>
    "Configuration error: " ++ fault.message ++
      ". Check --url/--user/--password or the PASS_CORE_* environment variables."
  | .unknownKind name => unknownKindMessage name ++ ". Known types: " ++ knownKinds
  | .output cause => "Failed to write output: " ++ cause
  | .render cause => "Failed to render JSON: " ++ cause

/-- The causes behind the message, from the outermost to the innermost. -/
def causes : CommandFault → List String
  | .notFound _ _ => []
  | .client fault => fault.causes
  | .config fault => [fault.message]
  | .unknownKind name => [unknownKindMessage name]
  | .output cause => [cause]
  | .render cause => [cause]

end CommandFault

end ResearchRecords
