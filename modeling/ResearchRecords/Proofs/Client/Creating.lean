import ResearchRecords.Proofs.Client.Discipline
import ResearchRecords.Proofs.Document.Acceptance
import ResearchRecords.Proofs.Json.Written

/-!
Creating from a response. The id of a new record is what its response has under `id` in what it has
under `data`. For either of them a list of one value does as well as an object, although a response
that is a list, or has a list where there is one resource, is no document.
-/
namespace ResearchRecords

open Json (Value Members Node only?At)
open Document (Malformed ListedResource decodeOne decodeMany assignedId total unknownTotal)
open Results

namespace Client

theorem created_of_run {client : Client} {record created : Record} {status : Nat} {body : Bytes}
    (h : ((client.create record).run (.constant ⟨status, body⟩) ()).1 = .ok created) :
    record.id = none ∧ isSuccess status = true ∧
      ∃ id, assignedId body = .ok id ∧ created = record.withId (some id) := by
  unfold create at h
  cases hid : record.id with
  | some id =>
    rw [createRequest, hid, run_attempt_error] at h
    cases h
  | none =>
    rw [client.createRequest_eq hid, run_attempt_ok] at h
    obtain ⟨_, _, id, hstatus, houtcome, hassigned, rfl⟩ := exists_of_readCreated h
    obtain ⟨rfl, rfl⟩ := Response.mk.inj (Except.ok.inj houtcome)
    exact ⟨rfl, hstatus, id, hassigned, rfl⟩

/-- What is accepted as a response. Records are read from objects only, and one record is read from
primary data that is a list only if this is the list of the fields of a resource. An id or a total is
read from any text of the outer form of JSON that is an object or a list of one value at most: the id
is the string that is not empty under `id` in what stands under `data`, and a record that is created
gets this id. Everything else is refused as malformed. -/
theorem accepted_responses (kind : Kind) (body : Bytes) :
    ((¬ ∃ members, Json.parse body = .ok (.object members)) →
        Malformed (decodeOne kind body) ∧ Malformed (decodeMany kind body)) ∧
      (∀ members items, Json.parse body = .ok (.object members) →
        Members.get? members "data" = some (.array items) →
          Malformed (decodeOne kind body) ∨
            ListedResource kind items ∧ ∀ record?, decodeOne kind body = .ok record? →
              ∃ record id, record? = some record ∧ record.id = some id ∧
                items[1]? = some (.string id)) ∧
      (¬ (Json.readWith Node.skip body = .ok () ∧ (Json.root body).outline.IsRecord) →
        Malformed (assignedId body) ∧ Malformed (total body)) ∧
      (Malformed (assignedId body) ∨ ∃ id, assignedId body = .ok id ∧ id ≠ "" ∧
        only?At ["data", "id"] (Json.root body).outline = some (.string id)) ∧
      (∀ v, Json.readWith (Node.value Node.maxDepth) body = .ok v → v.Distinct →
        ∀ id, assignedId body = .ok id ↔
          id ≠ "" ∧ only?At ["data", "id"] v = some (.string id)) ∧
      (∀ n, total body = .ok n →
        n = ((only?At ["meta", "page", "totalRecords"] (Json.root body).outline).bind
          Document.integer?).getD unknownTotal) ∧
      ∀ (client : Client) record created status,
        ((client.create record).run (.constant ⟨status, body⟩) ()).1 = .ok created →
          ∃ id, created = record.withId (some id) ∧ id ≠ "" ∧
            only?At ["data", "id"] (Json.root body).outline = some (.string id) := by
  refine ⟨?_, ?_, Document.malformed_receipt, ?_, ?_, ?_, ?_⟩
  · intro h
    have hparse := Document.malformed_parse h
    exact ⟨Document.malformed_decodeOne kind hparse, Document.malformed_decodeMany kind hparse⟩
  · intro members items hbody hdata
    exact Document.decodeOne_of_array kind hbody hdata
  · rcases Document.malformed_or_ok_of_assignedId body with hmalformed | ⟨id, hid⟩
    · exact .inl hmalformed
    · obtain ⟨_, _, hne, hplace⟩ := Document.of_assignedId hid
      exact .inr ⟨id, hid, hne, hplace⟩
  · intro v hv hdistinct id
    exact Document.assignedId_eq_ok_iff_only? hv hdistinct id
  · intro n hn
    exact (Document.of_total hn).2.2
  · intro client record created status h
    obtain ⟨_, _, id, hid, rfl⟩ := created_of_run h
    obtain ⟨_, _, hne, hplace⟩ := Document.of_assignedId hid
    exact ⟨id, rfl, hne, hplace⟩

theorem not_object {body : Bytes}
    (h : (Json.parse body).toOption.map Value.found ≠ some .object) :
    ¬ ∃ members, Json.parse body = .ok (.object members) := by
  rintro ⟨members, hbody⟩
  exact h (by rw [hbody]; rfl)

/-- The response to a creation. -/
def createdGrant : Value :=
  .object [("data", .object [("id", .string "7"), ("type", .string "grant")])]

/-- A list of one grant. -/
def listOfGrant : Members Value :=
  [("data", .array [.object [("id", .string "7"), ("type", .string "grant")]])]

theorem accepted_responses_createdGrant :
    Malformed (decodeOne .grant (Text.Utf8.encode "<html>")) ∧
      Malformed (total (Text.Utf8.encode "<html>")) ∧
      Malformed (decodeOne .grant (Value.object listOfGrant).toBytes) ∧
      assignedId createdGrant.toBytes = .ok "7" ∧
      ∃ created, ((loopback.create (.blank .grant)).run
          (.constant ⟨201, createdGrant.toBytes⟩) ()).1 = .ok created ∧
        created.id = some "7" := by
  obtain ⟨hobject, _, houter, _⟩ := accepted_responses .grant (Text.Utf8.encode "<html>")
  obtain ⟨_, hlist, _⟩ := accepted_responses .grant (Value.object listOfGrant).toBytes
  obtain ⟨_, _, _, _, hid, _, hcreated⟩ := accepted_responses .grant createdGrant.toBytes
  have hplain : createdGrant.Plain Node.maxDepth := by simp [createdGrant, Node.maxDepth]
  have hv : Json.readWith (Node.value Node.maxDepth) createdGrant.toBytes = .ok createdGrant := by
    rw [Json.readWith_toBytes hplain, Node.value_tree hplain]
  refine ⟨(hobject (not_object (by decide +kernel))).1, (houter ?_).2, ?_, ?_, ?_⟩
  · rintro ⟨hskip, _⟩
    have hnone : (Json.readWith Node.skip (Text.Utf8.encode "<html>")).toOption = none := by
      decide +kernel
    rw [hskip] at hnone
    cases hnone
  · have hparse : Json.parse (Value.object listOfGrant).toBytes =
        .ok (.object listOfGrant) :=
      Json.parse_toBytes (by simp [listOfGrant, Node.maxDepth])
    refine (hlist _ _ hparse rfl).resolve_right ?_
    rintro ⟨⟨id, rest, heq, _⟩, _⟩
    cases heq
  · exact (hid _ hv (by simp [createdGrant, Members.names]) "7").mpr ⟨by decide, rfl⟩
  · have hsome : ((loopback.create (.blank .grant)).run
        (.constant ⟨201, createdGrant.toBytes⟩) ()).1.toOption.isSome = true := by decide +kernel
    have hrun := eq_ok_getD hsome (.blank .grant)
    obtain ⟨id, heq, _, hplace⟩ := hcreated loopback _ _ 201 hrun
    rw [Document.outline_of_readWith hv] at hplace
    obtain rfl : "7" = id := Value.string.inj (Option.some.inj hplace)
    exact ⟨_, hrun, by rw [heq]; rfl⟩

/-- A user as the list of the type and the id. -/
def listedUser : Members Value := [("data", .array [.string "user", .string "u1"])]

/-- An id and a total are taken from lists, and one resource from a list of its type and its id. -/
theorem accepted_responses_lists :
    (¬ ∃ members, Json.parse (Text.Utf8.encode "[[\"42\"]]") = .ok (.object members)) ∧
      assignedId (Text.Utf8.encode "[[\"42\"]]") = .ok "42" ∧
      (¬ ∃ members, Json.parse (Text.Utf8.encode "[[[17]]]") = .ok (.object members)) ∧
      total (Text.Utf8.encode "[[[17]]]") = .ok 17 ∧
      Json.parse (Value.object listedUser).toBytes = .ok (.object listedUser) ∧
      ∃ record, decodeOne .user (Value.object listedUser).toBytes = .ok (some record) := by
  refine ⟨not_object (by decide +kernel), (toOption_eq_some ..).mp (by decide +kernel),
    not_object (by decide +kernel), (toOption_eq_some ..).mp (by decide +kernel),
    Json.parse_toBytes (by simp [listedUser, Node.maxDepth]), ?_⟩
  have hsome : (decodeOne .user (Value.object listedUser).toBytes).toOption.join.isSome = true := by
    decide +kernel
  obtain ⟨record, hrecord⟩ := Option.isSome_iff_exists.mp hsome
  exact ⟨record, (toOption_join_eq_some ..).mp hrecord⟩

end Client

end ResearchRecords
