import ResearchRecords.Proofs.Document.Agreement
import ResearchRecords.Proofs.Document.Stubs

/-!
Reading one record. A response gives a record exactly if it parses to a document of one resource of
the kind asked for, with an id, if the resource can be built, and if the scan can list what is
outstanding. Each relationship then has the included targets of its linkage, followed by stubs for
the others, as far as it can hold them.
-/
namespace ResearchRecords.Document

open Json (Members)
open Results

/-- The stubs for the targets of a linkage that are not included. -/
def stubsOf (document : Document) (resource : Resource) (r : Relationship) : List Record :=
  (((resource.linkage r.name).targets.filter fun t => !isIncluded document t).map Prod.snd).map
    (Record.stub r.target)

/-- The targets that a relationship has in the end. -/
def Settles (document : Document) (resource : Resource) (r : Relationship)
    (targets : List Record) : Prop :=
  ∃ records, HydratesAll document resource r records ∧
    targets = r.limit (records ++ stubsOf document resource r)

/-- A response of one record that can be read. -/
structure Readable (kind : Kind) (body : Bytes) (document : Document) (resource : Resource) :
    Prop where
  parsed : parse body = .ok document
  primary : document.primary = .one resource
  type : resource.type = kind.name
  id : resource.id.getD "" ≠ ""
  hydrated : ∃ record, hydrate document kind resource = .ok record
  scanned : ∃ s, scan body = .ok s ∧
    ∃ entries, outstandingOf (s.included.filterMap Identifier.target?)
      ⟨resource.id, resource.relationships⟩ = .ok entries

theorem Readable.exists_id {kind : Kind} {body : Bytes} {document : Document} {resource : Resource}
    (h : Readable kind body document resource) : ∃ id, id ≠ "" ∧ resource.id = some id := by
  have hid := h.id
  cases hsome : resource.id with
  | none => simp [hsome] at hid
  | some id => exact ⟨id, by simpa [hsome] using hid, rfl⟩

theorem id_of_hydrates {document : Document} {r : Relationship} {target : Target}
    {record : Record} (h : Hydrates document r target record) : record.id = some target.2 := by
  obtain ⟨resource, hresource, hhydrate⟩ := h
  obtain ⟨_, _, rfl, _⟩ := (hydrate_eq_ok_iff ..).mp hhydrate
  have hidentity := List.find?_some hresource
  simp only [Bool.and_eq_true, beq_iff_eq] at hidentity
  exact hidentity.2

/-- Targets of one kind are told apart by their ids. -/
theorem target_eq_of_kinds {targets : List Target} {type : String}
    (h : ∀ target ∈ targets, target.1 = type) {a b : Target} (ha : a ∈ targets) (hb : b ∈ targets)
    (hid : a.2 = b.2) : a = b :=
  Prod.ext ((h a ha).trans (h b hb).symm) hid

/-- A target that is not included has an id that none of the included targets has. -/
theorem not_mem_ids_of_hydratesAll {document : Document} {resource : Resource} {r : Relationship}
    {records : List Record} (h : HydratesAll document resource r records) {target : Target}
    (hmem : target ∈ (resource.linkage r.name).targets)
    (hmissing : isIncluded document target = false) :
    some target.2 ∉ records.map Record.id := by
  intro hid
  obtain ⟨record, hrecord, heq⟩ := List.mem_map.mp hid
  obtain ⟨other, hother, hhydrates⟩ := exists_mem_of_forall₂ h.2.flip hrecord
  obtain ⟨hothermem, hincluded⟩ := List.mem_filter.mp hother
  have hsecond : other.2 = target.2 := by
    rw [id_of_hydrates hhydrates] at heq
    exact Option.some.inj heq
  rw [target_eq_of_kinds h.1 hothermem hmem hsecond, hmissing] at hincluded
  simp at hincluded

/-- Filling a relationship that has its included targets adds the stubs for the others. -/
theorem filled_of_hydratesAll {document : Document} {resource : Resource} {r : Relationship}
    {records : List Record} (h : HydratesAll document resource r records) {record : Record}
    (hheld : record.targets r = r.limit records) {ids : List String}
    (hids : ids =
      ((resource.linkage r.name).targets.filter fun t => !isIncluded document t).map Prod.snd) :
    filled record r ids = r.limit (records ++ stubsOf document resource r) := by
  rw [stubsOf, ← hids, filled]
  cases hcardinality : r.cardinality with
  | toOne =>
    rw [Relationship.limit_of_toOne hcardinality] at hheld ⊢
    rw [missingStubs_of_toOne hcardinality, Record.isUnset, hheld]
    cases records with
    | nil =>
      rw [List.take_nil, List.isEmpty_nil, if_pos rfl, Relationship.nil_joined,
        Relationship.limit_of_toOne hcardinality, List.nil_append, List.map_take, List.take_take,
        Nat.min_self]
    | cons first rest => exact Relationship.joined_nil r _
  | toMany =>
    rw [Relationship.limit_of_toMany hcardinality] at hheld ⊢
    -- The targets held have the ids of included ones, so no missing id is among theirs.
    have hnew : ids.filter (fun id => !(record.targetIds r).contains (some id)) = ids := by
      rw [List.filter_eq_self]
      intro id hid
      rw [hids, List.mem_map] at hid
      obtain ⟨target, htarget, rfl⟩ := hid
      obtain ⟨hmem, hmissing⟩ := List.mem_filter.mp htarget
      have := not_mem_ids_of_hydratesAll h hmem (by simpa using hmissing)
      rw [Record.targetIds, hheld]
      simpa using this
    rw [missingStubs_of_toMany hcardinality, hnew, hheld,
      Relationship.joined_of_toMany hcardinality]

theorem primaryRecord_eq_ok (document : Document) (kind : Kind) (resource : Resource)
    (record : Record) :
    primaryRecord document kind resource = .ok record ↔
      resource.type = kind.name ∧ resource.id.getD "" ≠ "" ∧
        hydrate document kind resource = .ok record := by
  unfold primaryRecord
  by_cases htype : resource.type = kind.name
  · by_cases hid : resource.id.getD "" = ""
    · simp [htype, hid]
    · simp [htype, hid]
  · simp [htype]

theorem decodeOne_eq_some (kind : Kind) (body : Bytes) (record : Record) :
    decodeOne kind body = .ok (some record) ↔
      ∃ document resource, parse body = .ok document ∧ document.primary = .one resource ∧
        primaryRecord document kind resource = .ok record := by
  simp only [decodeOne, bind_eq_ok]
  constructor
  · rintro ⟨document, hparse, h⟩
    cases hprimary : document.primary with
    | empty => simp [hprimary] at h
    | one resource =>
      simp only [hprimary, bind_eq_ok, pure_eq_ok, Option.some.injEq, exists_eq_right] at h
      exact ⟨document, resource, hparse, hprimary, h⟩
    | many resources => simp [hprimary] at h
  · rintro ⟨document, resource, hparse, hprimary, h⟩
    exact ⟨document, hparse, by simp [hprimary, h]⟩

theorem decodeOne_eq_none (kind : Kind) (body : Bytes) : decodeOne kind body = .ok none ↔
    ∃ document, parse body = .ok document ∧ document.primary = .empty := by
  simp only [decodeOne, bind_eq_ok]
  apply exists_congr
  intro document
  cases document.primary <;> simp

theorem readOne_eq_some (kind : Kind) (body : Bytes) (record : Record) :
    readOne kind body = .ok (some record) ↔
      ∃ held found, decodeOne kind body = .ok (some held) ∧ outstanding body = .ok found ∧
        settled (mergeOwn found held) = .ok record := by
  simp only [readOne, bind_eq_ok]
  constructor
  · rintro ⟨held?, hdecode, h⟩
    cases held? with
    | none => simp at h
    | some held =>
      simp only [bind_eq_ok, pure_eq_ok, Option.some.injEq, exists_eq_right] at h
      obtain ⟨found, hfound, h⟩ := h
      exact ⟨held, found, hdecode, hfound, h⟩
  · rintro ⟨held, found, hdecode, hfound, h⟩
    exact ⟨some held, hdecode, by simp [hfound, h]⟩

theorem readOne_eq_none (kind : Kind) (body : Bytes) :
    readOne kind body = .ok none ↔ decodeOne kind body = .ok none := by
  simp only [readOne, bind_eq_ok]
  constructor
  · rintro ⟨record?, hdecode, h⟩
    cases record? with
    | none => exact hdecode
    | some record => simp at h
  · intro hdecode
    exact ⟨none, hdecode, rfl⟩

/-- One resource with an id lists its entries under this id. -/
theorem outstandingOfScan_eq_ok {s : Scan} {id : String} {relationships : Members Linkage}
    (h : s.primary = [⟨some id, relationships⟩]) (found : Members (List Outstanding)) :
    outstandingOfScan s = .ok found ↔
      ∃ entries, outstandingOf (s.included.filterMap Identifier.target?) ⟨some id, relationships⟩ =
        .ok entries ∧ addEntries [] id entries = found := by
  simp only [outstandingOfScan, h, List.foldlM_cons, List.foldlM_nil, addResource, bind_eq_ok,
    pure_eq_ok]
  simp

theorem mergeOwn_addEntries {record : Record} {id : String} (h : record.id = some id)
    (entries : List Outstanding) :
    mergeOwn (addEntries [] id entries) record = merge record entries := by
  have hentries : (Members.get? (addEntries [] id entries) id).getD [] = entries := by
    cases entries with
    | nil => rfl
    | cons entry rest => simp [addEntries, Members.insert, Members.get?_cons]
  rw [mergeOwn, h]
  exact congrArg (merge record) hentries

theorem readable_of_readOne {kind : Kind} {body : Bytes} {record : Record}
    (h : readOne kind body = .ok (some record)) :
    ∃ document resource, Readable kind body document resource := by
  obtain ⟨held, found, hdecode, hfound, _⟩ := (readOne_eq_some ..).mp h
  obtain ⟨document, resource, hparse, hprimary, hrecord⟩ := (decodeOne_eq_some ..).mp hdecode
  obtain ⟨htype, hid, hhydrate⟩ := (primaryRecord_eq_ok ..).mp hrecord
  simp only [outstanding, ofJson, bind_eq_ok, mapError_eq_ok] at hfound
  obtain ⟨s, hscan, hfound⟩ := hfound
  refine ⟨document, resource, hparse, hprimary, htype, hid, ⟨held, hhydrate⟩, s, hscan, ?_⟩
  cases hsome : resource.id with
  | none => simp [hsome] at hid
  | some id =>
    have hagree := (scan_agrees hparse hprimary hscan).1
    rw [hsome] at hagree
    obtain ⟨entries, hentries, _⟩ := (outstandingOfScan_eq_ok hagree found).mp hfound
    exact ⟨entries, hentries⟩

theorem ne_empty_of_mem_linkage {body : Bytes} {document : Document}
    (hparse : parse body = .ok document) {resource : Resource}
    (hprimary : document.primary = .one resource) {name : String} {target : Target}
    (h : target ∈ (resource.linkage name).targets) :
    target.1 ≠ "" ∧ target.2 ≠ "" := by
  obtain ⟨_, _, hmirrors⟩ := mirrors_of_parse hparse
  rw [(hmirrors.shows_primary hprimary).targets_linkage] at h
  exact Content.ne_empty_of_mem_targets h

/-- The entries of a resource that can be built name the kinds that the relationships declare. -/
theorem kind_of_entry {document : Document} {kind : Kind} {resource : Resource}
    (hnodup : (Members.names resource.relationships).Nodup)
    (hlinked : ∀ r, r.source = kind → ∃ records, HydratesAll document resource r records)
    {included : List Target} {entry : Outstanding}
    (hentry : entry ∈ resource.relationships.filterMap (Outstanding.outstanding? included))
    {r : Relationship} (hr : kind.relationship? entry.name = some r) :
    entry.kind = r.target.name := by
  obtain ⟨m, hm, heq⟩ := List.mem_filterMap.mp hentry
  obtain ⟨hname, target, htarget, hkind⟩ := Outstanding.outstanding?_eq_some heq
  obtain ⟨hsource, hrname⟩ := Relationship.eq_of_relationship? hr
  have hlinkage : resource.linkage r.name = m.2 := by
    rw [Resource.linkage, hrname, hname, (Members.get?_eq_some_iff hnodup m.1 m.2).mpr hm]
    rfl
  obtain ⟨records, hall⟩ := hlinked r hsource
  rw [hkind]
  exact hall.1 target (hlinkage ▸ htarget)

/-- The record of a response that can be read. -/
theorem readOne_of_readable {kind : Kind} {body : Bytes} {document : Document} {resource : Resource}
    (h : Readable kind body document resource) :
    ∃ attributes targets,
      readOne kind body = .ok (some ⟨kind, resource.id, attributes, targets⟩) ∧
      Row.read resource.attributes kind.schema = .ok attributes ∧
      (∀ r, r.source = kind → Settles document resource r (targets r)) ∧
      ∀ r, r.source ≠ kind → targets r = [] := by
  obtain ⟨held, hhydrate⟩ := h.hydrated
  obtain ⟨attributes, heldTargets, rfl, hattributes, hlinked, hforeign⟩ :=
    (hydrate_eq_ok_iff ..).mp hhydrate
  obtain ⟨s, hscan, entries, hentries⟩ := h.scanned
  obtain ⟨hagree, hsorted, hincluded⟩ := scan_agrees h.parsed h.primary hscan
  obtain ⟨id, _, hid⟩ := h.exists_id
  have hdecode : decodeOne kind body = .ok (some ⟨kind, resource.id, attributes, heldTargets⟩) :=
    (decodeOne_eq_some ..).mpr ⟨document, resource, h.parsed, h.primary,
      (primaryRecord_eq_ok ..).mpr ⟨h.type, h.id, hhydrate⟩⟩
  have houtstanding : outstanding body = .ok (addEntries [] id entries) := by
    simp only [outstanding, ofJson, bind_eq_ok, mapError_eq_ok]
    rw [hid] at hagree hentries
    exact ⟨s, hscan, (outstandingOfScan_eq_ok hagree _).mpr ⟨entries, hentries, rfl⟩⟩
  obtain rfl := outstandingOf_eq hentries
  have hmerge := merge_eq ⟨kind, resource.id, attributes, heldTargets⟩
    ((Outstanding.names_entries (s.included.filterMap Identifier.target?)
      resource.relationships).nodup hsorted.nodup_names)
    (fun entry hentry r hr => kind_of_entry hsorted.nodup_names
      (fun r hr => (hlinked r hr).imp fun _ hall => hall.1) hentry hr)
  have hread := (readOne_eq_some kind body _).mpr ⟨_, _, hdecode, houtstanding, by
    rw [mergeOwn_addEntries hid, hmerge]
    rfl⟩
  refine ⟨attributes, _, hread, hattributes, ?_, ?_⟩
  · intro r hr
    obtain ⟨records, hall, hheld⟩ := hlinked r hr
    refine ⟨records, hall, ?_⟩
    rw [mergedTargets, if_pos hr, Outstanding.idsUnder_entries _ hsorted.nodup_names]
    apply filled_of_hydratesAll hall hheld
    congr 1
    apply List.filter_congr
    intro target htarget
    obtain ⟨htype, hid⟩ := ne_empty_of_mem_linkage h.parsed h.primary htarget
    rw [Bool.not_inj_iff, Bool.eq_iff_iff, List.contains_iff_mem]
    exact hincluded target htype hid
  · intro r hr
    rw [mergedTargets, if_neg hr]
    exact hforeign r hr

end ResearchRecords.Document
