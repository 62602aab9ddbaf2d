import ResearchRecords.Proofs.Client.Setup
import ResearchRecords.Proofs.Document.Replacing

/-!
The operations of a client that send one request: which request that is, when there is one, and when
its response counts as a success.
-/
namespace ResearchRecords

open Results
open Document (Form)

/-- A repository that gives the same response to every request. -/
def Transport.constant (response : Response) : Transport Unit where
  answer _ _ := (.ok response, ())

namespace Client

/-- A client of a repository on the same machine. -/
def loopback : Client := ⟨⟨"http", "127.0.0.1", [""], none, none⟩, none⟩

def loopbackConfig : Config := ⟨"http://127.0.0.1/", none, none, none⟩

theorem ofConfig_loopbackConfig : ofConfig loopbackConfig = .ok loopback := by decide +kernel

section Run

variable {α σ : Type} (next : Request → Outcome → Except ClientFault α) (transport : Transport σ)
  (state : σ)

theorem run_attempt_ok (request : Request) :
    (attempt (.ok request) next).run transport state =
      (next request (transport.answer state request).1, (transport.answer state request).2) := rfl

theorem run_attempt_error (fault : ClientFault) :
    (attempt (.error fault) next).run transport state = (.error fault, state) := rfl

end Run

theorem successBody_eq_ok (request : Request) (outcome : Outcome) (body : Bytes) :
    successBody request outcome = .ok body ↔
      ∃ status, isSuccess status = true ∧ outcome = .ok ⟨status, body⟩ := by
  cases outcome with
  | error failure => simp [successBody]
  | ok response =>
    obtain ⟨status, found⟩ := response
    by_cases h : isSuccess status = true
    · simp [successBody, h]
    · simp [successBody, h]

theorem foundBody_eq_some (request : Request) (outcome : Outcome) (body : Bytes) :
    foundBody request outcome = .ok (some body) ↔
      ∃ status, isSuccess status = true ∧ outcome = .ok ⟨status, body⟩ := by
  rw [← successBody_eq_ok request]
  unfold foundBody
  split
  · have h : isSuccess 404 = false := by decide
    simp [successBody, h]
  · simp

theorem foundBody_eq_none {request : Request} {outcome : Outcome}
    (h : foundBody request outcome = .ok none) : ∃ body, outcome = .ok ⟨404, body⟩ := by
  unfold foundBody at h
  split at h
  · next body => exact ⟨body, rfl⟩
  · simp at h

/-- A record was found if the response of the repository is a success that shows it. -/
theorem readFound_eq_some (kind : Kind) (request : Request) (outcome : Outcome) (record : Record) :
    readFound kind request outcome = .ok (some record) ↔
      ∃ status body, isSuccess status = true ∧ outcome = .ok ⟨status, body⟩ ∧
        Document.readOne kind body = .ok (some record) := by
  simp only [readFound, bind_eq_ok]
  constructor
  · rintro ⟨body?, hbody, h⟩
    cases body? with
    | none => simp at h
    | some body =>
      obtain ⟨status, hstatus, houtcome⟩ := (foundBody_eq_some ..).mp hbody
      exact ⟨status, body, hstatus, houtcome, (mapError_eq_ok ..).mp h⟩
  · rintro ⟨status, body, hstatus, houtcome, h⟩
    exact ⟨some body, (foundBody_eq_some ..).mpr ⟨status, hstatus, houtcome⟩,
      (mapError_eq_ok ..).mpr h⟩

variable (client : Client)

theorem createRequest_eq {record : Record} (h : record.id = none) :
    client.createRequest record =
      .ok (client.request .post (client.collectionUrl record.kind)
        (some (bodyOf .brief record))) := by
  rw [createRequest, h]

theorem recordUrl_eq (kind : Kind) {id : String} (hne : id ≠ "") :
    client.recordUrl kind id = .ok ((client.collectionUrl kind).push id) := if_neg hne

theorem updateRequest_eq {record : Record} {id : String} (hid : record.id = some id)
    (hne : id ≠ "") : client.updateRequest record =
      .ok (client.request .patch ((client.collectionUrl record.kind).push id)
        (some (bodyOf .replacing record))) := by
  rw [updateRequest, hid, Document.replacement_eq]
  simp only [client.recordUrl_eq record.kind hne]
  rfl

theorem getRequest_eq (kind : Kind) {id : String} (hne : id ≠ "") (including : List String) :
    client.getRequest kind id including =
      .ok (client.request .get (((client.collectionUrl kind).push id).withPairs
        (Selector.includePairs including)) none) := by
  rw [getRequest, client.recordUrl_eq kind hne]
  rfl

/-- The request for one page of a selection. -/
def pageRequest (selector : Selector) : Request :=
  client.request .get ((client.collectionUrl selector.kind).withPairs selector.queryPairs) none

/-- What is fetched for a page: the request and what its response is read as. -/
theorem select_eq {selector : Selector} (hlimit : 0 < selector.limit) :
    client.select selector = .send (client.pageRequest selector)
      (readPage selector.kind (client.pageRequest selector)) := by
  have hvalid : selector.isValid = true := decide_eq_true hlimit
  rw [select, selectRequest, if_pos hvalid]
  rfl

theorem select_of_not_valid {selector : Selector} (h : ¬ 0 < selector.limit) :
    client.select selector = .done (.error (.argument (.zeroLimit selector.kind))) := by
  have hvalid : ¬ selector.isValid = true := by simpa [Selector.isValid] using h
  rw [select, selectRequest, if_neg hvalid]
  rfl

end Client

end ResearchRecords
