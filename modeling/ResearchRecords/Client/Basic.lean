import ResearchRecords.Client.Authorization
import ResearchRecords.Config
import ResearchRecords.Document.Merge
import ResearchRecords.Document.Receipt
import ResearchRecords.Document.Replace
import ResearchRecords.Selector

/-!
The client of a repository. Each operation checks what it needs, sends one request, and reads the
response; nothing is tried twice. A record that is not there is no fault for those who ask for it,
and a collection that is not there is empty.
-/
namespace ResearchRecords

structure Client where
  base : Url
  authorization : Option String
  deriving DecidableEq, Repr

/-- Records of one page in the order of the repository, and how many match on all pages. -/
structure Page where
  records : List Record
  total : Int

namespace Client

open Document (Form)

/-- Why no client can be made of some settings. -/
inductive SetupFault
  | config (fault : Config.Fault)
  | argument (fault : ArgumentFault)

/-- A client with the address and the credentials of some settings. What carries its requests is not
made here: each call is given its transport, and with it the time limit. -/
def connect (config : Config) : Except SetupFault Client := do
  let url ← config.url.mapError .config
  let authorization ← (config.credentials.mapM fun c => basicHeader c.1 c.2).mapError .argument
  return ⟨url.closed, authorization⟩

/-- Credentials can always be told in a header, so the address alone decides. -/
theorem connect_eq (config : Config) : connect config =
    (config.url.mapError .config).map fun url =>
      ⟨url.closed, config.credentials.map fun c => basicAuthorization c.1 c.2⟩ := by
  have hheader : (config.credentials.mapM fun c => basicHeader c.1 c.2) =
      .ok (config.credentials.map fun c => basicAuthorization c.1 c.2) := by
    cases config.credentials with
    | none => rfl
    | some c =>
      rw [Option.mapM_some, basicHeader_eq]
      rfl
  rw [connect, hheader]
  cases config.url <;> rfl

theorem connect_ne_argument (config : Config) (fault : ArgumentFault) :
    connect config ≠ .error (.argument fault) := by
  rw [connect_eq]
  cases config.url <;> rintro ⟨⟩

/-- The client of some settings. Only their address can be at fault. -/
def ofConfig (config : Config) : Except Config.Fault Client :=
  match h : connect config with
  | .ok client => .ok client
  | .error (.config fault) => .error fault
  | .error (.argument fault) => absurd h (connect_ne_argument config fault)

/-- The address of the collection of a kind. -/
def collectionUrl (client : Client) (kind : Kind) : Url :=
  client.base.sibling ["data", kind.name]

/-- The address of one record. -/
def recordUrl (client : Client) (kind : Kind) (id : String) : Except ClientFault Url :=
  if id = "" then .error (.argument (.emptyId kind))
  else .ok ((client.collectionUrl kind).push id)

/-- A user that the address names comes before that of the settings. -/
def request (client : Client) (method : Method) (url : Url) (body : Option String) : Request :=
  ⟨method, url, (loginAuthorization? url).or client.authorization, body⟩

def isSuccess (status : Nat) : Bool := 200 ≤ status && status < 300

/-- The body of a response that reports success. -/
def successBody (request : Request) (outcome : Outcome) : Except ClientFault Bytes :=
  match outcome with
  | .error failure => .error (.transport failure)
  | .ok response =>
    if isSuccess response.status then .ok response.body
    else
      .error (.status request.method request.url.text response.status
        (Text.Utf8.decodeLossy response.body))

/-- The body of a response that reports success, unless nothing was found. -/
def foundBody (request : Request) (outcome : Outcome) : Except ClientFault (Option Bytes) :=
  match outcome with
  | .ok ⟨404, _⟩ => .ok none
  | outcome => some <$> successBody request outcome

def ofDocument (result : Except Document.Fault α) : Except ClientFault α :=
  result.mapError .document

/-- Sends a request, or fails without sending one. -/
def attempt (request : Except ClientFault Request)
    (next : Request → Outcome → Except ClientFault α) : Call (Except ClientFault α) :=
  match request with
  | .error fault => .done (.error fault)
  | .ok request => .send request (next request)

def bodyOf (form : Form) (record : Record) : String := (Document.ofRecord form record).compact

def createRequest (client : Client) (record : Record) : Except ClientFault Request :=
  match record.id with
  | some id => .error (.argument (.alreadyCreated record.kind id))
  | none =>
    .ok (client.request .post (client.collectionUrl record.kind) (some (bodyOf .brief record)))

/-- The record with the id that the response assigns. -/
def readCreated (record : Record) (request : Request) (outcome : Outcome) :
    Except ClientFault Record := do
  let body ← successBody request outcome
  return record.withId (some (← ofDocument (Document.assignedId body)))

/-- Stores a new record. -/
def create (client : Client) (record : Record) : Call (Except ClientFault Record) :=
  attempt (client.createRequest record) (readCreated record)

def updateRequest (client : Client) (record : Record) : Except ClientFault Request := do
  match record.id with
  | none => throw (.argument (.noIdToUpdate record.kind))
  | some id =>
    let url ← client.recordUrl record.kind id
    return client.request .patch url (some (Document.replacement record).compact)

/-- Replaces all attributes and relationships of a stored record. -/
def update (client : Client) (record : Record) : Call (Except ClientFault Unit) :=
  attempt (client.updateRequest record) fun request outcome => do
    let _ ← successBody request outcome

/-- A request for a record; the targets of the named relationships shall come in full. -/
def getRequest (client : Client) (kind : Kind) (id : String) (including : List String) :
    Except ClientFault Request := do
  let url ← client.recordUrl kind id
  return client.request .get (url.withPairs (Selector.includePairs including)) none

def readFound (kind : Kind) (request : Request) (outcome : Outcome) :
    Except ClientFault (Option Record) := do
  match ← foundBody request outcome with
  | none => return none
  | some body => ofDocument (Document.readOne kind body)

/-- Fetches a record, if it is there. -/
def get (client : Client) (kind : Kind) (id : String) (including : List String) :
    Call (Except ClientFault (Option Record)) :=
  attempt (client.getRequest kind id including) (readFound kind)

/-- Fetches the stored state of a record. -/
def refresh (client : Client) (record : Record) (including : List String) :
    Call (Except ClientFault (Option Record)) :=
  match record.id with
  | none => .done (.error (.argument (.noIdToRefresh record.kind)))
  | some id => client.get record.kind id including

def deleteRequest (client : Client) (kind : Kind) (id : String) : Except ClientFault Request := do
  return client.request .delete (← client.recordUrl kind id) none

def delete (client : Client) (kind : Kind) (id : String) : Call (Except ClientFault Unit) :=
  attempt (client.deleteRequest kind id) fun request outcome => do
    let _ ← successBody request outcome

def selectRequest (client : Client) (selector : Selector) : Except ClientFault Request :=
  if selector.isValid then
    .ok (client.request .get
      ((client.collectionUrl selector.kind).withPairs selector.queryPairs) none)
  else .error (.argument (.zeroLimit selector.kind))

def readPage (kind : Kind) (request : Request) (outcome : Outcome) : Except ClientFault Page := do
  match ← foundBody request outcome with
  | none => return ⟨[], 0⟩
  | some body =>
    let records ← ofDocument (Document.readMany kind body)
    return ⟨records, ← ofDocument (Document.total body)⟩

/-- Fetches the records of one page. -/
def select (client : Client) (selector : Selector) : Call (Except ClientFault Page) :=
  attempt (client.selectRequest selector) (readPage selector.kind)

end Client

/-- Whether the repository has told how many records match. -/
def Page.totalKnown (page : Page) : Bool := page.total != Document.unknownTotal

end ResearchRecords
