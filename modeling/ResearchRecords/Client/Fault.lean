import ResearchRecords.Client.Transport
import ResearchRecords.Document.Fault

/-!
Why an operation of the client fails: before a request, for want of a response, by the status of the
response, or by its document.
-/
namespace ResearchRecords

inductive ArgumentFault
  | alreadyCreated (kind : Kind) (id : String)
  | noIdToUpdate (kind : Kind)
  | noIdToRefresh (kind : Kind)
  | emptyId (kind : Kind)
  | zeroLimit (kind : Kind)
  | invalidCredentials
  deriving DecidableEq, Repr

inductive ClientFault
  | argument (fault : ArgumentFault)
  | transport (failure : TransportFailure)
  | status (method : Method) (url : String) (status : Nat) (body : String)
  | document (fault : Document.Fault)
  deriving DecidableEq, Repr

def ArgumentFault.message : ArgumentFault → String
  | .alreadyCreated kind id =>
    "cannot create " ++ kind.name ++ " '" ++ id ++ "': the id is assigned by the repository"
  | .noIdToUpdate kind => "cannot update " ++ kind.name ++ " without an id"
  | .noIdToRefresh kind => "cannot refresh " ++ kind.name ++ " without an id"
  | .emptyId kind => kind.name ++ " id cannot be empty"
  | .zeroLimit kind => "selector limit for " ++ kind.name ++ " must be greater than zero"
  | .invalidCredentials => "invalid credentials: failed to parse header value"

namespace ClientFault

def message : ClientFault → String
  | .argument fault => "Invalid argument: " ++ fault.message
  | .transport failure => "HTTP request failed: " ++ failure.message
  | .status method url code body =>
    method.name ++ " " ++ url ++ " failed with status " ++ toString code ++ ": " ++ body
  | .document fault => fault.message

/-- The causes behind the message, from the outermost to the innermost. -/
def causes : ClientFault → List String
  | .transport failure => failure.message :: failure.causes
  | _ => []

def status? : ClientFault → Option Nat
  | .status _ _ code _ => some code
  | _ => none

end ClientFault

end ResearchRecords
