import ResearchRecords.Proofs.Client.Reading
import ResearchRecords.Proofs.Document.Nesting
import ResearchRecords.Proofs.Document.Written

/-!
The records within a record that was fetched. The record itself has a target for everything that its
resource names. A record within it has only the targets that were included, at any depth, and an
update that sends it back clears a relationship of which the one target was not included.
-/
namespace ResearchRecords

open Json (Value)
open Document
open Results

namespace Client

theorem none_not_mem_targetIds {document resource : Value} {whole record : Record} {depth : Nat}
    (h : Content.Nests document whole depth record resource) {r : Relationship}
    (hr : r.source = record.kind) : none ∉ record.targetIds r := by
  rw [h.targetIds r hr, List.mem_map]
  rintro ⟨target, _, hnone⟩
  cases hnone

/-- Each record within one that was fetched has the attributes of its resource and the targets that
the resource names, those included first; but records other than the whole one have only the
included targets. So the whole record is complete, and another one exactly if the document includes
what its resource names. Every target is again a record within the whole one, apart from the stubs
of the whole one. An update of a record sends null for a relationship to one target exactly if no
target is left. -/
theorem get_within (client : Client) (kind : Kind) (id : String) (including : List String)
    (status : Nat) (body : Bytes) (whole : Record)
    (h : ((client.get kind id including).run (.constant ⟨status, body⟩) ()).1 = .ok (some whole)) :
    ∃ document, Json.parse body = .ok document ∧ whole.kind = kind ∧
      ∀ depth record resource, Content.Within document whole depth record resource →
        Row.read (Content.attributes resource) record.kind.schema = .ok record.attributes ∧
        (∀ r, r.source = record.kind →
          record.targetIds r =
              (r.limit (Content.kept document resource r depth)).map (fun t => some t.2) ∧
            (Content.Complete record resource r ↔
              depth = 0 ∨ Content.Covered document resource r)) ∧
        (∀ r, ∀ child ∈ record.targets r,
          (∃ value, Content.Within document whole (depth + 1) child value) ∨
            depth = 0 ∧ ∃ target ∈ Content.unknownBy document resource r,
              child = .stub r.target target.2) ∧
        ∃ request next text sent, client.update record = .send request next ∧
          request.method = .patch ∧ request.body = some text ∧
          Json.parse (Text.Utf8.encode text) = .ok sent ∧
          ∀ r, r.source = record.kind → r.cardinality = .toOne →
            (Content.relationship? (Content.primary sent) r.name = some (linkageValue .null) ↔
              Content.namedBy resource r = [] ∨
                depth ≠ 0 ∧ Content.knownBy document resource r = []) := by
  obtain ⟨document, hparse, hkind, hwithin⟩ := nests_of_readOne (readOne_of_get h)
  refine ⟨document, hparse, hkind, ?_⟩
  intro depth record resource hrecord
  have hnests := hwithin depth record resource hrecord
  refine ⟨hnests.attributes, fun r hr => ⟨hnests.targetIds r hr, hnests.complete_iff hr⟩,
    hnests.targets, ?_⟩
  obtain ⟨own, hne, hid⟩ := hnests.id
  rw [update, client.updateRequest_eq hid hne]
  refine ⟨_, _, _, _, rfl, rfl, rfl, parse_ofRecord .replacing record, ?_⟩
  intro r hr hone
  rw [relationship?_ofRecord .replacing record hr,
    linkage?_eq_null_iff hone (none_not_mem_targetIds hnests hr), hnests.targets_eq_nil_iff hr,
    Content.kept_eq_nil_iff]

/-- A submission with a grant that is included, and whose one funder is not. -/
def fundedBody : Bytes :=
  let linked (name : String) (data : Value) : Value := .object [(name, .object [("data", data)])]
  let identifier (type id : String) : Value :=
    .object [("id", .string id), ("type", .string type)]
  Value.toBytes (.object [
    ("data", .object [("id", .string "1"), ("type", .string "submission"),
      ("relationships", linked "grants" (.array [identifier "grant" "2"]))]),
    ("included", .array [.object [("id", .string "2"), ("type", .string "grant"),
      ("relationships", linked "primaryFunder" (identifier "funder" "5"))]])])

def fundedDocument : Value := (Json.parse fundedBody).toOption.getD .null

theorem parse_fundedBody : Json.parse fundedBody = .ok fundedDocument := by
  have hsome : (Json.parse fundedBody).toOption.isSome = true := by decide +kernel
  exact eq_ok_getD hsome .null

/-- The grant within the submission names a funder and has none. -/
theorem exists_funded : ∃ whole grant resource,
    ((loopback.get .submission "1" []).run (.constant ⟨200, fundedBody⟩) ()).1 =
        .ok (some whole) ∧
      Content.Within fundedDocument whole 1 grant resource ∧ grant.kind = .grant ∧
      grant.id = some "2" ∧ grant.targets .grantPrimaryFunder = [] ∧
      Content.namedBy resource .grantPrimaryFunder = [("funder", "5")] := by
  have hread : ((loopback.get .submission "1" []).run
      (.constant ⟨200, fundedBody⟩) ()).1.toOption.join.map (fun whole =>
        (whole.targets .submissionGrants).map fun grant =>
          (grant.kind, grant.id, grant.targetIds .grantPrimaryFunder)) =
      some [(.grant, some "2", [])] := by decide +kernel
  have hsome : (Content.included? fundedDocument ("grant", "2")).isSome = true := by
    decide +kernel
  have hnames : (Content.included? fundedDocument ("grant", "2")).map
      (Content.namedBy · .grantPrimaryFunder) = some [("funder", "5")] := by decide +kernel
  have hnamed : ("grant", "2") ∈
      Content.namedBy (Content.primary fundedDocument) .submissionGrants := by decide +kernel
  obtain ⟨whole, hwhole, hgrants⟩ := Option.map_eq_some_iff.mp hread
  obtain ⟨grant, htargets, hgrant⟩ := List.map_eq_singleton_iff.mp hgrants
  obtain ⟨hkind, hid, hnone⟩ : grant.kind = .grant ∧ grant.id = some "2" ∧
      grant.targetIds .grantPrimaryFunder = [] := by simpa using hgrant
  obtain ⟨resource, hresource, hfunder⟩ := Option.map_eq_some_iff.mp hnames
  have hheld : grant ∈ whole.targets .submissionGrants := by simp [htargets]
  exact ⟨whole, grant, resource, (toOption_join_eq_some ..).mp hwhole,
    .target .whole hnamed hresource hheld hid, hkind, hid, List.map_eq_nil_iff.mp hnone, hfunder⟩

theorem get_within_funded : ∃ whole grant resource,
    ((loopback.get .submission "1" []).run (.constant ⟨200, fundedBody⟩) ()).1 =
        .ok (some whole) ∧
      Content.Within fundedDocument whole 1 grant resource ∧ grant.id = some "2" ∧
      grant.targetIds .grantPrimaryFunder = [] ∧
      ¬ Content.Complete grant resource .grantPrimaryFunder ∧
      ∃ request next text sent, loopback.update grant = .send request next ∧
        request.body = some text ∧ Json.parse (Text.Utf8.encode text) = .ok sent ∧
        Content.relationship? (Content.primary sent) "primaryFunder" =
          some (linkageValue .null) := by
  obtain ⟨whole, grant, resource, hget, hwithin, hkind, hid, _, hfunder⟩ := exists_funded
  obtain ⟨document, hparse, _, hall⟩ :=
    get_within loopback .submission "1" [] 200 fundedBody whole hget
  obtain rfl := Except.ok.inj (parse_fundedBody.symm.trans hparse)
  obtain ⟨_, htargets, _, request, next, text, sent, hupdate, _, htext, hsent, hnull⟩ :=
    hall 1 grant resource hwithin
  have hsource : Relationship.source .grantPrimaryFunder = grant.kind := hkind.symm
  have hunknown : Content.knownBy fundedDocument resource .grantPrimaryFunder = [] := by
    have hmissing : Content.isIncluded fundedDocument ("funder", "5") = false := by
      decide +kernel
    rw [Content.knownBy, hfunder, List.filter_cons_of_neg (by simp [hmissing]), List.filter_nil]
  obtain ⟨hids, hcomplete⟩ := htargets .grantPrimaryFunder hsource
  refine ⟨whole, grant, resource, hget, hwithin, hid, ?_, ?_, request, next, text, sent, hupdate,
    htext, hsent, (hnull .grantPrimaryFunder hsource rfl).mpr (.inr ⟨by decide, hunknown⟩)⟩
  · rw [hids, Content.kept, hunknown, Relationship.limit_nil, List.map_nil]
  · rw [hcomplete]
    rintro (hzero | hcovered)
    · cases hzero
    · have hnamed : Content.namedBy resource .grantPrimaryFunder ≠ [] := by simp [hfunder]
      exact hcovered hnamed hunknown

/-- A target that the document names is lost, and its relationship is cleared by an update. -/
theorem update_clears_funder : ∃ whole document,
    ((loopback.get .submission "1" []).run (.constant ⟨200, fundedBody⟩) ()).1 =
        .ok (some whole) ∧ Json.parse fundedBody = .ok document ∧
      ¬ (∀ depth record resource, Content.Within document whole depth record resource →
        ∀ r, r.source = record.kind → Content.Complete record resource r) ∧
      ∃ grant resource request next text sent,
        Content.Within document whole 1 grant resource ∧
        Content.namedBy resource .grantPrimaryFunder = [("funder", "5")] ∧
        loopback.update grant = .send request next ∧ request.body = some text ∧
        Json.parse (Text.Utf8.encode text) = .ok sent ∧
        Content.relationship? (Content.primary sent) "primaryFunder" =
          some (linkageValue .null) := by
  obtain ⟨whole, grant, resource, hget, hwithin, hkind, hid, hnone, hfunder⟩ := exists_funded
  have hsource : Relationship.source .grantPrimaryFunder = grant.kind := hkind.symm
  refine ⟨whole, fundedDocument, hget, parse_fundedBody, ?_, ?_⟩
  · intro hall
    have hcomplete : Content.namedBy resource .grantPrimaryFunder ≠ [] →
        grant.targets .grantPrimaryFunder ≠ [] :=
      hall 1 grant resource hwithin .grantPrimaryFunder hsource
    exact hcomplete (by simp [hfunder]) hnone
  · have hids : none ∉ grant.targetIds .grantPrimaryFunder := by simp [Record.targetIds, hnone]
    refine ⟨grant, resource, ?_⟩
    rw [update, loopback.updateRequest_eq hid (by decide)]
    refine ⟨_, _, _, _, hwithin, hfunder, rfl, rfl, parse_ofRecord .replacing grant, ?_⟩
    have hwritten := relationship?_ofRecord .replacing grant hsource
    rw [(linkage?_eq_null_iff rfl hids).mpr hnone] at hwritten
    exact hwritten

end Client

end ResearchRecords
