import ResearchRecords.Text.Utf8
import ResearchRecords.Url.User

/-!
Requests, responses, and what carries them. An operation is a call: it is done at once, or it
sends one request and depends on the outcome. A transport answers requests one after the other and
may keep a state. Two transports are given: one without a network, and one that answers from a
script and records what it was asked.
-/
namespace ResearchRecords

inductive Method
  | get
  | post
  | patch
  | delete
  deriving DecidableEq, Repr

def Method.name : Method → String
  | .get => "GET"
  | .post => "POST"
  | .patch => "PATCH"
  | .delete => "DELETE"

/-- The media type of every body. -/
def mediaType : String := "application/vnd.api+json"

structure Request where
  method : Method
  url : Url
  authorization : Option String
  body : Option String
  deriving DecidableEq, Repr

namespace Request

/-- The address that a request is sent to. A user that its address names is told in the
authorization and not in the address. -/
def target (request : Request) : Url := request.url.withoutLogin

/-- The headers of a request by their names. -/
def headers (request : Request) : List (String × String) :=
  [("accept", mediaType), ("content-type", mediaType)] ++
    (request.authorization.map fun value => ("authorization", value)).toList

end Request

structure Response where
  status : Nat
  body : Bytes
  deriving DecidableEq, Repr

/-- Why a request got no response, from the outermost cause to the innermost. -/
structure TransportFailure where
  url : Url
  causes : List String
  deriving DecidableEq, Repr

abbrev Outcome := Except TransportFailure Response

/-- An operation that sends one request at most. -/
inductive Call (β : Type)
  | done (result : β)
  | send (request : Request) (next : Outcome → β)

structure Transport (σ : Type) where
  answer : σ → Request → Outcome × σ

namespace TransportFailure

def message (failure : TransportFailure) : String :=
  "error sending request for url (" ++ failure.url.text ++ ")"

end TransportFailure

namespace Call

variable {α β σ : Type}

def map (f : α → β) : Call α → Call β
  | .done result => .done (f result)
  | .send request next => .send request fun outcome => f (next outcome)

def run (transport : Transport σ) (state : σ) : Call β → β × σ
  | .done result => (result, state)
  | .send request next =>
    let (outcome, state) := transport.answer state request
    (next outcome, state)

end Call

namespace Transport

/-- No network: every request fails when it is to be connected. -/
def offline : Transport Unit where
  answer _ request :=
    (.error ⟨request.target, ["client error (Connect)", "tcp connect error",
      "Network is unreachable (os error 101)"]⟩, ())

/-- The responses still to be given, and the requests that were made, the latest first. -/
structure Script where
  responses : List Response
  requests : List Request

/-- Statuses that come without a body. -/
def isBodiless (status : Nat) : Bool := status == 204 || status == 304

def deliver (response : Response) : Response :=
  if isBodiless response.status then { response with body := [] } else response

/-- Each request gets the next response; without one, the connection is dropped. Nothing is heard of
a request over a secure connection. -/
def scripted : Transport Script where
  answer script request :=
    if request.url.scheme = "https" then
      (.error ⟨request.target, ["client error (Connect)"]⟩, script)
    else
      let requests := { request with url := request.target } :: script.requests
      match script.responses with
      | [] => (.error ⟨request.target, ["client error (SendRequest)"]⟩, ⟨[], requests⟩)
      | response :: rest => (.ok (deliver response), ⟨rest, requests⟩)

end Transport

end ResearchRecords
