import ResearchRecords.Proofs.Client.Requests
import ResearchRecords.Proofs.Document.Receipt
import ResearchRecords.Proofs.Document.Written

/-!
A repository of one resource, wherever it is asked for. It stores what is posted under an id of its
own choice, and a patch overwrites the stored attributes and relationships member by member. A
replacing document has a member for every attribute and every relationship of its kind, so it leaves
nothing of the document before it, of whatever form that was.
-/
namespace ResearchRecords

open Json (Value Members)
open Results
open Document

/-- The members of the stored resource, if there is one. -/
abbrev Stored := Option (Members Value)

/-- What a repository is free to choose: the id of a new resource, which may depend on all it knows,
and what it says when a patch has been stored. -/
structure Repository where
  assign : Stored → Request → String
  assign_ne : ∀ stored request, assign stored request ≠ ""
  patched : Request → Response
  patched_success : ∀ request, Client.isSuccess (patched request).status = true

namespace Repository

/-- The resource in the body of a request. -/
def resource? (request : Request) : Stored :=
  match request.body with
  | none => none
  | some text =>
    match Json.parse (Text.Utf8.encode text) with
    | .error _ => none
    | .ok document =>
      match Members.get? (document.members []) "data" with
      | some (.object members) => some members
      | _ => none

def documentBytes (resource : Members Value) : Bytes :=
  Value.toBytes (.object [("data", .object resource)])

/-- Overwrites the members of one object of a resource, where the sent one has it. -/
def overwriteUnder (name : String) (held sent : Members Value) : Members Value :=
  match Members.get? sent name with
  | some (.object further) =>
    let members := ((Members.get? held name).getD .null).members []
    held.insert name (.object (Members.insertAll members further))
  | _ => held

def overwrite (held sent : Members Value) : Members Value :=
  overwriteUnder "relationships" (overwriteUnder "attributes" held sent) sent

def transport (repository : Repository) : Transport Stored where
  answer stored request :=
    match request.method, stored, resource? request with
    | .post, stored, some posted =>
      let resource := posted.insert "id" (.string (repository.assign stored request))
      (.ok ⟨201, documentBytes resource⟩, some resource)
    | .patch, some held, some sent => (.ok (repository.patched request), some (overwrite held sent))
    | .get, some held, _ => (.ok ⟨200, documentBytes held⟩, some held)
    | .delete, _, _ => (.ok ⟨204, []⟩, none)
    | _, stored, _ => (.ok ⟨404, []⟩, stored)

theorem resource?_bodyOf {request : Request} {form : Form} {record : Record}
    (h : request.body = some (Client.bodyOf form record)) :
    resource? request = some (resourceMembers form record) := by
  have hparse : Json.parse (Text.Utf8.encode (Client.bodyOf form record)) =
      .ok (ofRecord form record) := parse_ofRecord form record
  simp only [resource?, h, hparse]
  rfl

end Repository

/-- Every target has an id that is not empty. -/
def Record.Identified (record : Record) : Prop :=
  ∀ r, ∀ target ∈ record.targets r, ∃ id, target.id = some id ∧ id ≠ ""

namespace Document

theorem resourceMembers_eq (form : Form) {record : Record} {id : String}
    (hid : record.id = some id) : resourceMembers form record =
      ("attributes", .object (attributeMembers form record)) :: ("id", .string id) ::
        (optionalObject "relationships" (relationshipMembers form record) ++
          [("type", .string record.kind.name)]) := by
  simp [resourceMembers, idMembers, hid]

/-- A new resource gets its id, and is then the resource of the record with this id. -/
theorem insert_id (form : Form) {record : Record} (hid : record.id = none) (id : String) :
    Members.insert "id" (.string id) (resourceMembers form record) =
      resourceMembers form (record.withId (some id)) := by
  have hrelationships : relationshipMembers form (record.withId (some id)) =
      relationshipMembers form record := rfl
  have hattributes : attributeMembers form (record.withId (some id)) =
      attributeMembers form record := rfl
  rw [resourceMembers_eq form (show (record.withId (some id)).id = some id from rfl),
    hrelationships, hattributes]
  unfold resourceMembers idMembers
  rw [hid]
  cases relationshipMembers form record with
  | nil => rfl
  | cons m rest => rfl

theorem members_relationships (a i t : Value) (members : Members Value) :
    ((Members.get? (("attributes", a) :: ("id", i) ::
        (optionalObject "relationships" members ++ [("type", t)])) "relationships").getD
      .null).members [] = members := by
  cases members with
  | nil => simp [optionalObject, Members.get?_cons, Value.members]
  | cons m rest => simp [optionalObject, Members.get?_cons, Value.members]

theorem insert_relationships (a i t v : Value) (members : Members Value) :
    Members.insert "relationships" v (("attributes", a) :: ("id", i) ::
        (optionalObject "relationships" members ++ [("type", t)])) =
      [("attributes", a), ("id", i), ("relationships", v), ("type", t)] := by
  cases members with
  | nil => rfl
  | cons m rest => rfl

/-- A replacing document shows every declared relationship whose targets have ids. -/
theorem names_relationshipMembers_subset (form : Form) {before record : Record}
    (hkind : before.kind = record.kind) (hidentified : record.Identified) :
    Members.names (relationshipMembers form before) ⊆
      Members.names (relationshipMembers .replacing record) := by
  intro name hname
  obtain ⟨m, hm, rfl⟩ := List.mem_map.mp hname
  obtain ⟨r, hr, hrname, _⟩ := exists_of_mem_relationshipMembers form before hm
  have hshown : (linkage? .replacing record r).isSome := by
    unfold linkage?
    split
    · rfl
    · next hcardinality hids =>
      obtain ⟨target, htarget, hnone⟩ : ∃ target ∈ record.targets r, target.id = none := by
        rw [← List.mem_map]
        show none ∈ record.targetIds r
        rw [hids]
        exact List.mem_cons_self ..
      obtain ⟨id, hid, _⟩ := hidentified r target htarget
      simp [hnone] at hid
    · rfl
    · rfl
  rw [hrname]
  by_contra hmissing
  have hget := (Members.get?_eq_none_iff _ _).mpr hmissing
  rw [get?_relationshipMembers .replacing record (hr.trans hkind)] at hget
  simp [hget] at hshown

/-- A document that is not brief shows every attribute. -/
theorem names_attributeMembers_subset (form : Form) {before record : Record}
    (hkind : before.kind = record.kind) :
    Members.names (attributeMembers form before) ⊆
      Members.names (attributeMembers .replacing record) := by
  have hall : Members.names (attributeMembers .replacing record) =
      record.kind.schema.map Attribute.name := Row.names_write record.kind.schema record.attributes
  intro name hname
  obtain ⟨m, hm, rfl⟩ := List.mem_map.mp hname
  rw [hall, ← hkind, ← Row.names_write before.kind.schema before.attributes]
  exact List.mem_map_of_mem (mem_write_of_mem_attributeMembers form before hm)

/-- Nothing of a stored resource is left by a replacing one of the same kind and id. -/
theorem overwrite_eq (form : Form) {before record : Record} (hkind : before.kind = record.kind)
    {id : String} (hbefore : before.id = some id) (hid : record.id = some id)
    (hidentified : record.Identified) :
    Repository.overwrite (resourceMembers form before) (resourceMembers .replacing record) =
      resourceMembers .replacing record := by
  obtain ⟨hattributes, _, hrelationships, _⟩ := get?_resourceMembers .replacing record
  have hattributesAll := (sorted_attributeMembers form before).insertAll_eq
    (sorted_attributeMembers .replacing record) (names_attributeMembers_subset form hkind)
  have hcover := names_relationshipMembers_subset form hkind hidentified
  have hrelationshipsAll := (sorted_relationshipMembers form before).insertAll_eq
    (sorted_relationshipMembers .replacing record) hcover
  have hfirst : Repository.overwriteUnder "attributes" (resourceMembers form before)
      (resourceMembers .replacing record) =
      ("attributes", .object (attributeMembers .replacing record)) :: ("id", .string id) ::
        (optionalObject "relationships" (relationshipMembers form before) ++
          [("type", .string record.kind.name)]) := by
    simp only [Repository.overwriteUnder, hattributes, (get?_resourceMembers form before).1]
    show Members.insert "attributes"
      (Value.object (Members.insertAll (attributeMembers form before) _)) _ = _
    rw [hattributesAll, resourceMembers_eq form hbefore, hkind]
    rfl
  rw [Repository.overwrite, hfirst, resourceMembers_eq .replacing hid]
  unfold Repository.overwriteUnder
  rw [← resourceMembers_eq .replacing hid, hrelationships]
  -- A brief document may have no relationships, and then they are inserted in their place.
  by_cases hnone : relationshipMembers .replacing record = []
  · have hheld : relationshipMembers form before = [] := by
      rw [hnone] at hcover
      exact List.map_eq_nil_iff.mp (List.eq_nil_of_subset_nil hcover)
    rw [if_pos hnone, resourceMembers_eq .replacing hid, hheld, hnone]
  · rw [if_neg hnone]
    simp only [members_relationships]
    rw [hrelationshipsAll, insert_relationships, resourceMembers_eq .replacing hid]
    cases hmembers : relationshipMembers .replacing record with
    | nil => exact absurd hmembers hnone
    | cons m rest => rfl

end Document

namespace Repository

variable (repository : Repository) (client : Client)

theorem assignedId_documentBytes (form : Form) {record : Record} {id : String}
    (hid : record.id = some id) (hne : id ≠ "") :
    assignedId (documentBytes (resourceMembers form record)) = .ok id := by
  refine assignedId_eq (readWith_value_ofRecord form record)
    (durable_ofRecord form record).ordered.distinct rfl ?_ hne
  rw [(get?_resourceMembers form record).2.1, hid]
  rfl

/-- Creating a record stores its brief document under the id that is assigned. -/
theorem run_create {record : Record} (hid : record.id = none) (start : Stored) :
    ∃ id, id ≠ "" ∧ (client.create record).run repository.transport start =
      (.ok (record.withId (some id)),
        some (resourceMembers .brief (record.withId (some id)))) := by
  let request := client.request .post (client.collectionUrl record.kind)
    (some (Client.bodyOf .brief record))
  let id := repository.assign start request
  have hne : id ≠ "" := repository.assign_ne start request
  let stored := resourceMembers .brief (record.withId (some id))
  have hresource : resource? request = some (resourceMembers .brief record) :=
    resource?_bodyOf rfl
  have hanswer : repository.transport.answer start request =
      (.ok ⟨201, documentBytes stored⟩, some stored) := by
    simp only [transport, hresource, stored, ← insert_id .brief hid id]
    rfl
  have hbody : Client.successBody request (.ok ⟨201, documentBytes stored⟩) =
      .ok (documentBytes stored) := (Client.successBody_eq_ok ..).mpr ⟨201, by decide, rfl⟩
  have hassigned : Client.ofDocument (assignedId (documentBytes stored)) = .ok id :=
    (mapError_eq_ok ..).mpr (assignedId_documentBytes .brief rfl hne)
  have hcreated : Client.readCreated record request (.ok ⟨201, documentBytes stored⟩) =
      .ok (record.withId (some id)) := by
    simp only [Client.readCreated, hbody, bind_eq_ok, pure_eq_ok]
    exact ⟨_, rfl, id, hassigned, rfl⟩
  refine ⟨id, hne, ?_⟩
  rw [Client.create, client.createRequest_eq hid, Client.run_attempt_ok, hanswer]
  exact Prod.ext hcreated rfl

/-- Updating a record leaves the replacing document of the record, whatever was stored for its id
before. -/
theorem run_update (form : Form) {before record : Record} (hkind : before.kind = record.kind)
    {id : String} (hbefore : before.id = some id) (hid : record.id = some id) (hne : id ≠ "")
    (hidentified : record.Identified) :
    (client.update record).run repository.transport (some (resourceMembers form before)) =
      (.ok (), some (resourceMembers .replacing record)) := by
  let request := client.request .patch ((client.collectionUrl record.kind).push id)
    (some (Client.bodyOf .replacing record))
  have hresource : resource? request = some (resourceMembers .replacing record) :=
    resource?_bodyOf rfl
  have hanswer : repository.transport.answer (some (resourceMembers form before)) request =
      (.ok (repository.patched request), some (resourceMembers .replacing record)) := by
    rw [← overwrite_eq form hkind hbefore hid hidentified]
    simp only [transport, hresource]
    rfl
  have hsuccess : Client.successBody request (.ok (repository.patched request)) =
      .ok (repository.patched request).body :=
    (Client.successBody_eq_ok ..).mpr ⟨_, repository.patched_success request, rfl⟩
  rw [Client.update, client.updateRequest_eq hid hne, Client.run_attempt_ok, hanswer]
  dsimp only
  rw [hsuccess]
  rfl

/-- Fetching a record reads the stored document and changes nothing. -/
theorem run_get (form : Form) (record : Record) (kind : Kind) {id : String} (hne : id ≠ "")
    (including : List String) :
    (client.get kind id including).run repository.transport (some (resourceMembers form record)) =
      (Client.ofDocument (readOne kind (ofRecord form record).toBytes),
        some (resourceMembers form record)) := by
  rw [Client.get, client.getRequest_eq kind hne, Client.run_attempt_ok]
  rfl

end Repository

end ResearchRecords
