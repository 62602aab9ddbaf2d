import ResearchRecords.Proofs.Client.Requests
import ResearchRecords.Proofs.Document.Reading

/-!
Fetching a record, whatever the repository answers. The record that a response gives has a target
for every identifier of its linkage and no others: included ones are built from the document, and
the rest are stubs.
-/
namespace ResearchRecords

open Json (Value)
open Document (Content.Builds Content.known Content.unknown Content.named)
open Results

namespace Client

theorem readOne_of_get {client : Client} {kind : Kind} {id : String} {including : List String}
    {response : Response} {record : Record}
    (h : ((client.get kind id including).run (.constant response) ()).1 = .ok (some record)) :
    Document.readOne kind response.body = .ok (some record) := by
  unfold get at h
  cases hrequest : client.getRequest kind id including with
  | error fault =>
    rw [hrequest, run_attempt_error] at h
    cases h
  | ok request =>
    rw [hrequest, run_attempt_ok] at h
    obtain ⟨status, body, _, houtcome, hread⟩ := (readFound_eq_some ..).mp h
    obtain rfl := Except.ok.inj houtcome
    exact hread

/-- A record that was fetched has, for every target that its document names, the record built from
the last value included for the target, or else the stub of its id. The included ones come first;
each group is in the order of the document, with its repetitions. -/
theorem get_targets (client : Client) (kind : Kind) (id : String) (including : List String)
    (status : Nat) (body : Bytes) (record : Record)
    (h : ((client.get kind id including).run (.constant ⟨status, body⟩) ()).1 = .ok (some record)) :
    ∃ document, Json.parse body = .ok document ∧ record.kind = kind ∧
      (∀ r, r.source = kind → ∃ built,
        List.Forall₂ (Content.Builds document r) (Content.known document r) built ∧
          record.targets r = match r.cardinality with
            | .toMany => built ++ (Content.unknown document r).map fun t => .stub r.target t.2
            | .toOne =>
              (built.head?.or
                ((Content.named document r).head?.map fun t => .stub r.target t.2)).toList) ∧
      ∀ r, r.source ≠ kind → record.targets r = [] := by
  obtain ⟨document, hparse, rfl, hshows⟩ := Document.shows_of_readOne (readOne_of_get h)
  refine ⟨document, hparse, rfl, ?_, hshows.foreign⟩
  intro r hr
  obtain ⟨built, hbuilt, heq⟩ := hshows.declared r hr
  refine ⟨built, hbuilt, ?_⟩
  rw [heq]
  cases hcardinality : r.cardinality with
  | toMany => exact Relationship.limit_of_toMany hcardinality _
  | toOne =>
    rw [Relationship.limit_of_toOne hcardinality]
    cases built with
    | nil =>
      have hnone : Content.known document r = [] := List.forall₂_nil_right_iff.mp hbuilt
      rw [Document.Content.unknown_of_known_eq_nil hnone, List.nil_append]
      cases Content.named document r with
      | nil => rfl
      | cons first rest => rfl
    | cons first rest => rfl

/-- A submission with repositories of which one is included, one is named twice, and one identifier
has no id. -/
def mixedBody : Bytes :=
  let identifier (type id : String) : Value :=
    .object [("id", .string id), ("type", .string type)]
  Value.toBytes (.object [
    ("data", .object [("id", .string "1"), ("type", .string "submission"),
      ("relationships", .object [
        ("repositories", .object [("data", .array (["7", "8", "", "9", "8"].map
          (identifier "repository")))]),
        ("submitter", .object [("data", identifier "user" "3")])])]),
    ("included", .array [.object [("id", .string "9"), ("type", .string "repository"),
      ("attributes", .object [("name", .string "Archive")])]])])

/-- The attributes of a record as they are written. -/
def attributesText (record : Record) : String :=
  (Value.object (Document.attributeMembers .brief record)).compact

theorem get_targets_mixedBody : ∃ record document built,
    ((loopback.get .submission "1" []).run (.constant ⟨200, mixedBody⟩) ()).1 =
        .ok (some record) ∧
      record.targetIds .submissionRepositories = [some "9", some "7", some "8", some "8"] ∧
      (record.targets .submissionRepositories).head?.map attributesText =
        some "\x7b\"name\":\"Archive\",\"schemas\":[]\x7d" ∧
      record.targetIds .submissionSubmitter = [some "3"] ∧
      Json.parse mixedBody = .ok document ∧
      List.Forall₂ (Content.Builds document .submissionRepositories)
        (Content.known document .submissionRepositories) built ∧
      record.targets .submissionRepositories =
        built ++ (Content.unknown document .submissionRepositories).map
          fun t => .stub .repository t.2 := by
  have hread : ((loopback.get .submission "1" []).run
      (.constant ⟨200, mixedBody⟩) ()).1.toOption.join.map (fun record =>
        (record.targetIds .submissionRepositories,
          (record.targets .submissionRepositories).head?.map attributesText,
          record.targetIds .submissionSubmitter)) =
      some ([some "9", some "7", some "8", some "8"],
        some "\x7b\"name\":\"Archive\",\"schemas\":[]\x7d", [some "3"]) := by decide +kernel
  obtain ⟨record, hrecord, hshown⟩ := Option.map_eq_some_iff.mp hread
  obtain ⟨hrepositories, hshown⟩ := Prod.mk.inj hshown
  obtain ⟨hname, hsubmitter⟩ := Prod.mk.inj hshown
  have h := (toOption_join_eq_some ..).mp hrecord
  obtain ⟨document, hparse, _, htargets, _⟩ := get_targets loopback .submission "1" [] 200 mixedBody
    record h
  obtain ⟨built, hbuilt, heq⟩ := htargets .submissionRepositories rfl
  exact ⟨record, document, built, h, hrepositories, hname, hsubmitter, hparse, hbuilt, heq⟩

end Client

end ResearchRecords
