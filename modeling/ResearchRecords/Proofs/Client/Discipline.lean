import ResearchRecords.Proofs.Client.Walk
import ResearchRecords.Proofs.Document.Receipt

/-!
What every operation of a client keeps to. Without what it asks of its argument it sends nothing,
and else it sends one request; the status of the response decides before its body is read; and a
record that could not be created is left as it was.
-/
namespace ResearchRecords

open Json (Value Node)
open Results

/-- The operations of a client, with their arguments. -/
inductive Operation
  | create (record : Record)
  | update (record : Record)
  | get (kind : Kind) (id : String) (including : List String)
  | refresh (record : Record) (including : List String)
  | delete (kind : Kind) (id : String)
  | select (selector : Selector)

namespace Operation

abbrev Result : Operation → Type
  | create _ => Record
  | update _ => Unit
  | get .. => Option Record
  | refresh .. => Option Record
  | delete .. => Unit
  | select _ => Page

def call (client : Client) : (operation : Operation) → Call (Except ClientFault operation.Result)
  | create record => client.create record
  | update record => client.update record
  | get kind id including => client.get kind id including
  | refresh record including => client.refresh record including
  | delete kind id => client.delete kind id
  | select selector => client.select selector

/-- What an operation asks of its argument. -/
def Allowed : Operation → Prop
  | create record => record.id = none
  | update record => ∃ id, record.id = some id ∧ id ≠ ""
  | get _ id _ => id ≠ ""
  | refresh record _ => ∃ id, record.id = some id ∧ id ≠ ""
  | delete _ id => id ≠ ""
  | select selector => selector.limit ≠ 0

def method : Operation → Method
  | create _ => .post
  | update _ => .patch
  | get .. => .get
  | refresh .. => .get
  | delete .. => .delete
  | select _ => .get

/-- What an operation gives where nothing is found; for most that is a fault. -/
def absent? : (operation : Operation) → Option operation.Result
  | create _ => none
  | update _ => none
  | get .. => some none
  | refresh .. => some none
  | delete .. => none
  | select _ => some ⟨[], 0⟩

def request (client : Client) : Operation → Except ClientFault Request
  | create record => client.createRequest record
  | update record => client.updateRequest record
  | get kind id including => client.getRequest kind id including
  | refresh record including =>
    match record.id with
    | none => .error (.argument (.noIdToRefresh record.kind))
    | some id => client.getRequest record.kind id including
  | delete kind id => client.deleteRequest kind id
  | select selector => client.selectRequest selector

/-- The record with the id that a body assigns. -/
def createdFrom (record : Record) (body : Bytes) : Except Document.Fault Record := do
  return record.withId (some (← Document.assignedId body))

def pageFrom (kind : Kind) (body : Bytes) : Except Document.Fault Page := do
  return ⟨← Document.readMany kind body, ← Document.total body⟩

def read : (operation : Operation) → Bytes → Except Document.Fault operation.Result
  | create record => createdFrom record
  | update _ => fun _ => .ok ()
  | get kind _ _ => Document.readOne kind
  | refresh record _ => Document.readOne record.kind
  | delete .. => fun _ => .ok ()
  | select selector => pageFrom selector.kind

end Operation

/-- A response read by its status first. -/
def judge {α : Type} (absent? : Option α) (read : Bytes → Except Document.Fault α)
    (request : Request) : Outcome → Except ClientFault α
  | .error failure => .error (.transport failure)
  | .ok response =>
    if Client.isSuccess response.status then Client.ofDocument (read response.body)
    else
      match if response.status = 404 then absent? else none with
      | some a => .ok a
      | none =>
        .error (.status request.method request.url.text response.status
          (Text.Utf8.decodeLossy response.body))

variable {σ α β : Type}

theorem judge_eq_bind (read : Bytes → Except Document.Fault α) (request : Request)
    (outcome : Outcome) : judge none read request outcome =
      Client.successBody request outcome >>= fun body => Client.ofDocument (read body) := by
  cases outcome with
  | error failure => rfl
  | ok response =>
    rw [judge, Client.successBody, ite_self]
    by_cases h : Client.isSuccess response.status = true
    · rw [if_pos h, if_pos h]
      rfl
    · rw [if_neg h, if_neg h]
      rfl

theorem judge_some_eq_bind (a : α) (read : Bytes → Except Document.Fault α) (request : Request)
    (outcome : Outcome) : judge (some a) read request outcome =
      Client.foundBody request outcome >>= fun body? =>
        match body? with
        | none => .ok a
        | some body => Client.ofDocument (read body) := by
  cases outcome with
  | error failure => rfl
  | ok response =>
    obtain ⟨status, body⟩ := response
    by_cases hmissing : status = 404
    · subst hmissing
      rfl
    · have hfound : Client.foundBody request (.ok ⟨status, body⟩) =
          some <$> Client.successBody request (.ok ⟨status, body⟩) := by
        unfold Client.foundBody
        split
        · next heq => exact absurd (congrArg Response.status (Except.ok.inj heq)) hmissing
        · rfl
      rw [hfound, judge, Client.successBody, if_neg hmissing]
      by_cases h : Client.isSuccess status = true
      · rw [if_pos h, if_pos h]
        rfl
      · rw [if_neg h, if_neg h]
        rfl

namespace Operation

theorem readCreated_eq (record : Record) :
    Client.readCreated record = judge none (createdFrom record) := by
  funext request outcome
  rw [judge_eq_bind, Client.readCreated]
  congr 1
  funext body
  rw [createdFrom]
  cases Document.assignedId body <;> rfl

theorem acknowledge_eq : (fun request outcome => do let _ ← Client.successBody request outcome) =
    judge (none : Option Unit) fun _ => .ok () := by
  funext request outcome
  rw [judge_eq_bind]
  rfl

theorem readFound_eq (kind : Kind) :
    Client.readFound kind = judge (some none) (Document.readOne kind) := by
  funext request outcome
  rw [judge_some_eq_bind]
  rfl

theorem readPage_eq (kind : Kind) :
    Client.readPage kind = judge (some ⟨[], 0⟩) (pageFrom kind) := by
  funext request outcome
  rw [judge_some_eq_bind, Client.readPage]
  congr 1
  funext body?
  cases body? with
  | none => rfl
  | some body =>
    simp only [pageFrom]
    cases Document.readMany kind body with
    | error fault => rfl
    | ok records => cases Document.total body <;> rfl

/-- Every operation sends its request and judges the response by its status first. -/
theorem call_eq (client : Client) (operation : Operation) : operation.call client =
    Client.attempt (operation.request client) (judge operation.absent? operation.read) := by
  cases operation with
  | create record =>
    exact congrArg (Client.attempt (client.createRequest record)) (readCreated_eq record)
  | update record =>
    exact congrArg (Client.attempt (client.updateRequest record)) acknowledge_eq
  | get kind id including =>
    exact congrArg (Client.attempt (client.getRequest kind id including)) (readFound_eq kind)
  | refresh record including =>
    rw [call, Client.refresh, request]
    cases record.id with
    | none => rfl
    | some id =>
      exact congrArg (Client.attempt (client.getRequest record.kind id including))
        (readFound_eq record.kind)
  | delete kind id =>
    exact congrArg (Client.attempt (client.deleteRequest kind id)) acknowledge_eq
  | select selector =>
    exact congrArg (Client.attempt (client.selectRequest selector)) (readPage_eq selector.kind)

/-- What a call sends is the request of its operation. -/
theorem request_of_call {client : Client} {operation : Operation} {request : Request}
    {next : Outcome → Except ClientFault operation.Result}
    (h : operation.call client = .send request next) :
    operation.request client = .ok request := by
  rw [call_eq] at h
  cases hrequest : operation.request client with
  | error fault =>
    rw [hrequest] at h
    cases h
  | ok sent =>
    rw [hrequest] at h
    exact congrArg Except.ok (Call.send.inj h).1

theorem recordUrl_empty (client : Client) (kind : Kind) :
    client.recordUrl kind "" = .error (.argument (.emptyId kind)) := if_pos rfl

/-- Without an id that is not empty, a record that should have one has none or the empty one. -/
theorem id_of_not_identified {record : Record} (h : ¬ ∃ id, record.id = some id ∧ id ≠ "") :
    record.id = none ∨ record.id = some "" := by
  cases hid : record.id with
  | none => exact .inl rfl
  | some id =>
    by_cases hempty : id = ""
    · exact .inr (congrArg some hempty)
    · exact absurd ⟨id, hid, hempty⟩ h

theorem request_of_not_allowed (client : Client) {operation : Operation}
    (h : ¬ operation.Allowed) :
    ∃ fault, operation.request client = .error (.argument fault) := by
  cases operation with
  | create record =>
    cases hid : record.id with
    | none => exact absurd hid h
    | some id => exact ⟨_, by rw [request, Client.createRequest, hid]⟩
  | update record =>
    rcases id_of_not_identified h with hid | hid
    · exact ⟨_, by rw [request, Client.updateRequest, hid]; rfl⟩
    · exact ⟨_, by rw [request, Client.updateRequest, hid]; rfl⟩
  | get kind id including =>
    obtain rfl := not_not.mp h
    exact ⟨_, by rw [request, Client.getRequest, recordUrl_empty]; rfl⟩
  | refresh record including =>
    rcases id_of_not_identified h with hid | hid
    · exact ⟨_, by rw [request, hid]⟩
    · exact ⟨_, by rw [request, hid]; rfl⟩
  | delete kind id =>
    obtain rfl := not_not.mp h
    exact ⟨_, by rw [request, Client.deleteRequest, recordUrl_empty]; rfl⟩
  | select selector =>
    have hlimit : selector.limit = 0 := not_not.mp h
    exact ⟨_, by rw [request, Client.selectRequest, Selector.isValid, hlimit]; rfl⟩

theorem request_of_allowed (client : Client) {operation : Operation} (h : operation.Allowed) :
    ∃ request, operation.request client = .ok request ∧ request.method = operation.method := by
  cases operation with
  | create record => exact ⟨_, client.createRequest_eq h, rfl⟩
  | update record =>
    obtain ⟨id, hid, hne⟩ := h
    exact ⟨_, client.updateRequest_eq hid hne, rfl⟩
  | get kind id including => exact ⟨_, client.getRequest_eq kind h including, rfl⟩
  | refresh record including =>
    obtain ⟨id, hid, hne⟩ := h
    exact ⟨_, by rw [request, hid]; exact client.getRequest_eq record.kind hne including, rfl⟩
  | delete kind id =>
    exact ⟨_, by rw [request, Client.deleteRequest, client.recordUrl_eq kind h]; rfl, rfl⟩
  | select selector =>
    have hvalid : selector.isValid = true := by
      simpa [Selector.isValid] using Nat.pos_of_ne_zero h
    exact ⟨_, if_pos hvalid, rfl⟩

end Operation

theorem Call.run_map (f : α → β) (call : Call α) (transport : Transport σ) (state : σ) :
    (call.map f).run transport state =
      (f (call.run transport state).1, (call.run transport state).2) := by
  cases call <;> rfl

namespace Client

theorem exists_of_readCreated {record created : Record} {request : Request} {outcome : Outcome}
    (h : readCreated record request outcome = .ok created) :
    ∃ status body id, isSuccess status = true ∧ outcome = .ok ⟨status, body⟩ ∧
      Document.assignedId body = .ok id ∧ created = record.withId (some id) := by
  simp only [readCreated, ofDocument, bind_eq_ok, mapError_eq_ok, pure_eq_ok] at h
  obtain ⟨body, hbody, id, hid, rfl⟩ := h
  obtain ⟨status, hstatus, houtcome⟩ := (successBody_eq_ok ..).mp hbody
  exact ⟨status, body, id, hstatus, houtcome, hid, rfl⟩

end Client

namespace Operation

/-- The document of a grant that was given an id. -/
def createdGrant : Bytes :=
  Value.toBytes (.object [("data", .object [("id", .string "42"), ("type", .string "grant")])])

end Operation

end ResearchRecords
