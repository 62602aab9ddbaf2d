import ResearchRecords.Proofs.Document.Scannable
import ResearchRecords.Proofs.Document.Settlement
import ResearchRecords.Proofs.Document.Written
import Mathlib.Data.List.ReduceOption

/-!
Reading what was written. The text of a document of any form reads back as the record it was written
for, with a stub for each target that has an id. The document includes nothing, so no target is more
than a stub, and none is taken for one that the record has already.
-/
namespace ResearchRecords

/-- The ids that a document of the record shows for a relationship. -/
def Record.shownIds (record : Record) (r : Relationship) : List String :=
  (record.targetIds r).reduceOption.filter (· ≠ "")

/-- The record with a stub for each target that has an id, and without the others. -/
def Record.withStubs (record : Record) : Record :=
  { record with targets := fun r => (record.shownIds r).map (.stub r.target) }

namespace Document

open Json (Value Members)
open Results

variable (form : Form) (record : Record)

/-- The resource that is read from the document of a record. -/
def writtenResource : Resource where
  type := record.kind.name
  id := record.id
  attributes := attributeMembers form record
  relationships := (relationshipMembers form record).map fun m => (m.1, Linkage.ofData m.2)

theorem ofRelationship_linkageValue (data : Value) :
    Linkage.ofRelationship (linkageValue data) = .ok (Linkage.ofData (linkageValue data)) := by
  simp [linkageValue, Linkage.ofRelationship, Linkage.ofData, relationshipData, Value.members,
    Members.get?_cons]

theorem ofMembers_resourceMembers :
    Resource.ofMembers (resourceMembers form record) = .ok (writtenResource form record) := by
  obtain ⟨hattributes, hid, hrelationships, htype⟩ := get?_resourceMembers form record
  have hreadId : Resource.readId ((record.id.map Value.string).getD .null) = .ok record.id := by
    cases record.id <;> rfl
  have hreadRelationships : Resource.readRelationships
      ((Members.get? (resourceMembers form record) "relationships").getD .null) =
      .ok (writtenResource form record).relationships := by
    rw [hrelationships]
    by_cases hnone : relationshipMembers form record = []
    · rw [if_pos hnone, writtenResource, hnone]
      rfl
    · rw [if_neg hnone]
      refine mapM_of_forall fun m hm => ?_
      obtain ⟨data, hdata⟩ := exists_data_of_mem_relationshipMembers form record hm
      exact (bind_eq_ok ..).mpr ⟨_, hdata ▸ ofRelationship_linkageValue data, rfl⟩
  rw [Resource.ofMembers_eq_ok_iff, hattributes, hid, htype]
  exact ⟨rfl, hreadId, hreadRelationships, rfl⟩

theorem parse_written :
    parse (ofRecord form record).toBytes = .ok ⟨.one (writtenResource form record), []⟩ := by
  simp only [parse, ofJson, bind_eq_ok, mapError_eq_ok]
  refine ⟨_, parse_ofRecord form record, ?_⟩
  simp only [ofRecord, ofValue, ofJson, mapError_eq_ok, bind_eq_ok, Resource.readMember]
  refine ⟨.one (writtenResource form record), ?_, [], rfl, rfl⟩
  show Primary.ofValue (.object (resourceMembers form record)) = _
  simp only [Primary.ofValue, Resource.ofValue, ofMembers_resourceMembers]

theorem targets_writtenResource {r : Relationship} (hr : r.source = record.kind) :
    ((writtenResource form record).linkage r.name).targets =
      ((r.limit (record.targetIds r)).reduceOption.filter (· ≠ "")).map
        fun id => (r.target.name, id) := by
  rw [Resource.linkage, writtenResource, Members.get?_map, get?_relationshipMembers form record hr,
    ← targets_linkage? form record r]
  cases linkage? form record r with
  | none => rfl
  | some value => exact Content.targets_ofValue (relationshipData value)

theorem row_read_attributeMembers :
    Row.read (attributeMembers form record) record.kind.schema = .ok record.attributes := by
  have hnodup := (sorted_write record.kind record.attributes).nodup_names
  apply Row.read_eq
  intro m hm
  unfold attributeMembers
  split
  · rw [Members.get?_filter hnodup _ hm]
    by_cases hnull : m.2.isNull
    · exact .inr ⟨by simp [hnull], hnull⟩
    · exact .inl (by simp [hnull])
  · exact .inl ((Members.get?_eq_some_iff hnodup m.1 m.2).mpr hm)

/-- The text of a written document can be scanned. -/
theorem exists_scan_written : ∃ s, scan (ofRecord form record).toBytes = .ok s := by
  apply exists_scan_eq_ok (readWith_value_ofRecord form record)
    (durable_ofRecord form record).ordered.distinct
  · intro v hv
    obtain ⟨-, rfl⟩ := Prod.mk.inj (List.mem_singleton.mp hv)
    refine ⟨_, rfl, ?_, ?_⟩
    · intro v hv
      rcases mem_resourceMembers form record hv with h | ⟨id, _, h⟩ | h | h
      · simp at h
      · exact ⟨id, (Prod.mk.inj h).2⟩
      · simp at h
      · simp at h
    · intro v hv
      rcases mem_resourceMembers form record hv with h | ⟨id, _, h⟩ | h | h
      · simp at h
      · simp at h
      · refine ⟨_, (Prod.mk.inj h).2, fun m hm => ?_⟩
        obtain ⟨data, hdata⟩ := exists_data_of_mem_relationshipMembers form record hm
        exact ⟨_, hdata⟩
      · simp at h
  · intro v hv
    simp at hv

/-- A document that includes nothing gives no relationship any included targets. -/
theorem hydratesAll_written {r : Relationship} (hr : r.source = record.kind)
    (records : List Record) :
    HydratesAll ⟨.one (writtenResource form record), []⟩ (writtenResource form record) r records ↔
      records = [] := by
  have hfilter : (((writtenResource form record).linkage r.name).targets.filter
      (isIncluded ⟨.one (writtenResource form record), []⟩)) = [] :=
    List.filter_eq_nil_iff.mpr fun _ _ => Bool.false_ne_true
  rw [HydratesAll, hfilter, List.forall₂_nil_left_iff]
  constructor
  · exact And.right
  · intro h
    refine ⟨fun t ht => ?_, h⟩
    rw [targets_writtenResource form record hr] at ht
    obtain ⟨id, _, rfl⟩ := List.mem_map.mp ht
    rfl

theorem kind_of_written {m : String × Linkage}
    (hm : m ∈ (writtenResource form record).relationships) :
    ∃ kind, ∀ t ∈ m.2.targets, t.1 = kind := by
  obtain ⟨member, hmember, rfl⟩ := List.mem_map.mp hm
  obtain ⟨r, _, _, hvalue⟩ := exists_of_mem_relationshipMembers form record hmember
  refine ⟨r.target.name, fun t ht => ?_⟩
  have htargets := targets_linkage? form record r
  rw [hvalue, Option.map_some, Option.getD_some, ← Content.targets_ofValue] at htargets
  obtain ⟨id, _, rfl⟩ := List.mem_map.mp (htargets ▸ ht)
  rfl

theorem readable_written {id : String} (hid : record.id = some id) (hne : id ≠ "") :
    Readable record.kind (ofRecord form record).toBytes ⟨.one (writtenResource form record), []⟩
      (writtenResource form record) where
  parsed := parse_written form record
  primary := rfl
  type := rfl
  id := by
    show record.id.getD "" ≠ ""
    rw [hid]
    exact hne
  hydrated := by
    refine ⟨⟨record.kind, record.id, record.attributes, fun _ => []⟩, ?_⟩
    refine (hydrate_eq_ok_iff ..).mpr ⟨record.attributes, fun _ => [], rfl,
      row_read_attributeMembers form record, fun r hr => ?_, fun _ _ => rfl⟩
    exact ⟨[], (hydratesAll_written form record hr []).mpr rfl, r.limit_nil.symm⟩
  scanned := by
    obtain ⟨s, hs⟩ := exists_scan_written form record
    exact ⟨s, hs, outstandingOf_of_kinds _ fun m hm => kind_of_written form record hm⟩

/-- What is settled for a written document: a stub for each id that is shown. -/
theorem settles_written {r : Relationship} (hr : r.source = record.kind) {targets : List Record}
    (h : Settles ⟨.one (writtenResource form record), []⟩ (writtenResource form record) r targets) :
    targets = r.limit (((r.limit (record.targetIds r)).reduceOption.filter (· ≠ "")).map
      (Record.stub r.target)) := by
  obtain ⟨records, hall, rfl⟩ := h
  obtain rfl := (hydratesAll_written form record hr records).mp hall
  have hfilter : (((writtenResource form record).linkage r.name).targets.filter fun t =>
      !isIncluded ⟨.one (writtenResource form record), []⟩ t) =
      ((writtenResource form record).linkage r.name).targets :=
    List.filter_eq_self.mpr fun _ _ => rfl
  rw [List.nil_append, stubsOf, hfilter, targets_writtenResource form record hr, List.map_map,
    List.map_map]
  rfl

/-- Where a relationship has no more targets than it can hold, all of them are shown. -/
theorem limit_shown {r : Relationship}
    (h : r.cardinality = .toOne → (record.targets r).length ≤ 1) :
    r.limit (((r.limit (record.targetIds r)).reduceOption.filter (· ≠ "")).map
      (Record.stub r.target)) = (record.shownIds r).map (Record.stub r.target) := by
  have hids : r.limit (record.targetIds r) = record.targetIds r := by
    apply Relationship.limit_eq_self
    rw [Record.targetIds, List.length_map]
    exact h
  rw [hids]
  apply Relationship.limit_eq_self
  intro hone
  calc (((record.targetIds r).reduceOption.filter (· ≠ "")).map (Record.stub r.target)).length
      ≤ (record.targetIds r).reduceOption.length := by
        rw [List.length_map]
        exact List.length_filter_le ..
    _ ≤ (record.targetIds r).length := List.reduceOption_length_le _
    _ ≤ 1 := by
        rw [Record.targetIds, List.length_map]
        exact h hone

theorem readOne_written (hwellFormed : record.WellFormed) {id : String}
    (hid : record.id = some id) (hne : id ≠ "") :
    readOne record.kind (ofRecord form record).toBytes = .ok (some record.withStubs) := by
  obtain ⟨_, hforeign, hsingle, _, _⟩ := hwellFormed
  obtain ⟨attributes, targets, hread, hattributes, hsettles, hrest⟩ :=
    readOne_of_readable (readable_written form record hid hne)
  have hsame := (row_read_attributeMembers form record).symm.trans hattributes
  obtain rfl := Except.ok.inj hsame
  have htargets : targets = record.withStubs.targets := by
    funext r
    by_cases hr : r.source = record.kind
    · rw [settles_written form record hr (hsettles r hr)]
      exact limit_shown record (hsingle r)
    · have hnone : record.targets r = [] := hforeign r hr
      rw [hrest r hr]
      simp [Record.withStubs, Record.shownIds, Record.targetIds, hnone]
  rw [hread, htargets]
  rfl

end Document

end ResearchRecords
