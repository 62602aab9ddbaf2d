import ResearchRecords.Proofs.Document.Listing
import ResearchRecords.Proofs.Document.Settlement
import ResearchRecords.Proofs.Json.Determined

/-!
Pages of records. A page is a document with several primary resources. Each of its records is the
one that a document with this resource alone, and the same resources included, would give: the scan
reads a resource the same way wherever it stands, building a record looks at the included resources
only, and what is outstanding is kept apart by the ids.
-/
namespace ResearchRecords.Document

open Json (Value Members Node Layout Determined CanRead)
open Results

theorem scanText_determined : Determined scanText := Node.value_determined.map nonEmpty

theorem identifierLayout_determined : Determined identifierLayout.read := by
  apply Layout.read_determined
  intro field hfield record
  simp only [identifierLayout, List.mem_cons, List.not_mem_nil, or_false] at hfield
  rcases hfield with rfl | rfl
  · exact scanText_determined.map fun text => { record with type := text }
  · exact scanText_determined.map fun text => { record with id := text }

theorem scanIdentifier?_determined : Determined scanIdentifier? := by
  constructor
  intro room room' node node' v identifier hv hv' h
  cases node' with
  | object members' ending' =>
    obtain ⟨_, values, _, _, _, rfl⟩ := Node.value_object hv'
    cases node with
    | object members ending =>
      rw [scanIdentifier?_object, map_eq_ok] at h ⊢
      obtain ⟨found, hfound, rfl⟩ := h
      exact ⟨found, identifierLayout_determined.agrees hv hv' hfound, rfl⟩
    | _ => simp [Node.value] at hv
  | list items' ending' =>
    obtain ⟨inner, values, rfl, hvalues, hending, rfl⟩ := Node.value_list hv'
    obtain rfl := Node.outline_of_value _ hv ▸ scanIdentifier?_eq h
    simp [scanIdentifier?, Node.skipItems_of_value items' hvalues, hending, Identifier.ofValue?]
  | _ =>
    obtain rfl := Node.outline_of_value _ hv ▸ scanIdentifier?_eq h
    cases v with
    | object members => simp [Node.value] at hv'
    | _ => simp [scanIdentifier?, hv', Identifier.ofValue?]

theorem scanLinkage_determined : Determined scanLinkage := by
  constructor
  intro room room' node node' v linkage hv hv' h
  cases node' with
  | object members' ending' =>
    obtain ⟨_, values, _, _, _, rfl⟩ := Node.value_object hv'
    cases node with
    | object members ending =>
      rw [scanLinkage_object, map_eq_ok] at h ⊢
      obtain ⟨found, hfound, rfl⟩ := h
      exact ⟨found, identifierLayout_determined.agrees hv hv' hfound, rfl⟩
    | _ => simp [Node.value] at hv
  | list items' ending' =>
    obtain ⟨_, values, _, _, _, rfl⟩ := Node.value_list hv'
    cases node with
    | list items ending =>
      have hitems := (Node.items_determined scanIdentifier?_determined).map
        fun found => Linkage.many found.reduceOption
      exact hitems.agrees hv hv' h
    | _ => simp [Node.value] at hv
  | _ =>
    obtain rfl := Node.outline_of_value _ hv ▸ scanLinkage_eq h
    cases v with
    | object members => simp [Node.value] at hv'
    | array items => simp [Node.value] at hv'
    | _ => simp [scanLinkage, hv', Linkage.ofValue]

theorem relationshipLayout_determined : Determined relationshipLayout.read := by
  apply Layout.read_determined
  intro field hfield record
  obtain rfl := List.mem_singleton.mp hfield
  exact scanLinkage_determined

theorem scanRelationships_determined : Determined scanRelationships :=
  (Node.optional_determined (Node.members_determined relationshipLayout_determined)).map
    fun members => Members.ordered (members.getD [])

theorem resourceLayout_determined : Determined resourceLayout.read := by
  apply Layout.read_determined
  intro field hfield record
  simp only [resourceLayout, List.mem_cons, List.not_mem_nil, or_false] at hfield
  rcases hfield with rfl | rfl
  · exact (Node.optional_determined Node.string_determined).map
      fun id => { record with id }
  · exact scanRelationships_determined.map fun relationships => { record with relationships }

theorem scanIncluded_determined : Determined scanIncluded :=
  (Node.optional_determined (Node.items_determined identifierLayout_determined)).map
    fun items => items.getD []

/-- Building a record looks at the included resources only. -/
theorem included?_congr {a b : Document} (h : a.included = b.included) :
    a.included? = b.included? := by
  funext target
  rw [included?, included?, h]

theorem hydrate_congr {a b : Document} (h : a.included? = b.included?) (kind : Kind)
    (resource : Resource) : hydrate a kind resource = hydrate b kind resource := by
  induction hrank : kind.rank using Nat.strong_induction_on generalizing kind resource with
  | _ n ih =>
    rw [hydrate_eq, hydrate_eq]
    congr 1
    funext record
    apply foldlM_congr
    intro record r hr
    have htargets : hydrateTarget a r = hydrateTarget b r := by
      funext target
      have hrest := fun resource =>
        ih _ (hrank ▸ Relationship.rank_target_lt_of_mem hr) r.target resource rfl
      rw [hydrateTarget, hydrateTarget, h]
      cases b.included? target with
      | none => rfl
      | some resource => simp only [hrest]
    rw [hydrateRelationship, hydrateRelationship, htargets]

theorem primaryRecord_congr {a b : Document} (h : a.included? = b.included?) (kind : Kind)
    (resource : Resource) : primaryRecord a kind resource = primaryRecord b kind resource := by
  rw [primaryRecord, primaryRecord, hydrate_congr h]

theorem parse_eq_ok_iff {body : Bytes} {members : Members Value}
    (hv : Json.readWith (Node.value Node.maxDepth) body = .ok (.object members))
    (document : Document) : parse body = .ok document ↔
      Primary.ofValue ((Members.get? members "data").getD .null).canonical =
          .ok document.primary ∧
        readIncluded ((Members.get? members "included").getD .null).canonical =
          .ok document.included := by
  have hjson : Json.parse body = .ok (Value.object members).canonical := by
    simp [Json.parse, hv]
  obtain ⟨primary, included⟩ := document
  simp only [parse, hjson, Value.canonical_object, ofJson, Except.mapError, bind_eq_ok,
    Except.ok.injEq, exists_eq_left']
  rw [← Value.canonicalObject]
  simp only [ofValue, ofJson, mapError_eq_ok, bind_eq_ok, pure_eq_ok, Resource.readMember,
    Value.get?_canonicalObject, getD_map_canonical, Document.mk.injEq]
  constructor
  · rintro ⟨primary, hprimary, included, hincluded, rfl, rfl⟩
    exact ⟨hprimary, hincluded⟩
  · rintro ⟨hprimary, hincluded⟩
    exact ⟨primary, hprimary, included, hincluded, rfl, rfl⟩

theorem Primary.ofValue_array {items : List Value} {resources : List Resource}
    (h : items.mapM Resource.ofValue = .ok resources) :
    Primary.ofValue (.array items) = .ok (.many resources) := by
  simp only [Primary.ofValue, h, Except.toOption]

/-- The response of this resource alone, beside what is included, gives the record. -/
def ReadsAlone (kind : Kind) (included? : Option Value) (v : Value) (record : Record) : Prop :=
  ∃ body members, Json.readWith (Node.value Node.maxDepth) body = .ok (.object members) ∧
    Members.get? members "data" = some v ∧ Members.get? members "included" = included? ∧
    readOne kind body = .ok (some record)

/-- The targets that a scan takes as included. -/
def scannedTargets (included? : Option Value) : List Target :=
  (Scan.includedOf (included?.getD .null)).filterMap Identifier.target?

/-- A resource with what each step of reading it gives. -/
structure Reading (kind : Kind) (included? : Option Value) where
  value : Value
  resource : Resource
  id : String
  held : Record
  entries : List Outstanding
  record : Record
  read : Resource.ofValue value.canonical = .ok resource
  identified : resource.id = some id
  built : ∀ document : Document,
    readIncluded (included?.getD .null).canonical = .ok document.included →
      primaryRecord document kind resource = .ok held
  scanned : ∃ room node, node.value room = .ok value ∧
    resourceLayout.read room node = .ok ⟨resource.id, resource.relationships⟩
  held_id : held.id = some id
  record_id : record.id = some id
  listed : outstandingOf (scannedTargets included?) ⟨some id, resource.relationships⟩ = .ok entries
  merged : merge held entries = (record, none)

/-- What is included can be read, in the document and by the scan. -/
structure IncludedReads (included? : Option Value) : Prop where
  parsed : ∃ resources, readIncluded (included?.getD .null).canonical = .ok resources
  scanned : ∀ v, included? = some v → ∃ room node found,
    node.value room = .ok v ∧ scanIncluded room node = .ok found

theorem settled_eq_ok_iff {α : Type} (result : α × Option Fault) (a : α) :
    settled result = .ok a ↔ result = (a, none) := by
  obtain ⟨b, fault?⟩ := result
  cases fault? <;> simp [settled]

theorem id_of_primaryRecord {document : Document} {kind : Kind} {resource : Resource}
    {record : Record} (h : primaryRecord document kind resource = .ok record) :
    ∃ id, id ≠ "" ∧ resource.id = some id ∧ record.id = some id := by
  obtain ⟨_, hid, hhydrate⟩ := (primaryRecord_eq_ok ..).mp h
  obtain ⟨_, _, rfl, _⟩ := (hydrate_eq_ok_iff ..).mp hhydrate
  cases hsome : resource.id with
  | none => simp [hsome] at hid
  | some id => exact ⟨id, by simpa [hsome] using hid, rfl, rfl⟩

/-- A resource that was scanned as primary data is scanned so wherever it stands. -/
theorem exists_resource_scanned {body : Bytes} {members : Members Value}
    (hv : Json.readWith (Node.value Node.maxDepth) body = .ok (.object members)) {s : Scan}
    (hscan : scan body = .ok s) {v : Value} (hdata : Members.get? members "data" = some v)
    {resource : Resource} (hresource : Resource.ofValue v.canonical = .ok resource) :
    ∃ room node, node.value room = .ok v ∧
      resourceLayout.read room node = .ok ⟨resource.id, resource.relationships⟩ := by
  have hread : Resource.ofValue ((Members.get? members "data").getD .null).canonical =
      .ok resource := by rwa [hdata]
  obtain ⟨data, hobject⟩ := exists_object_of_scan hv hscan hread
  obtain rfl := Option.some.inj (hdata.symm.trans hobject)
  obtain ⟨room, node, primary, hnode, hprimary⟩ := exists_scanPrimary_of_scan hv hscan hdata
  cases node with
  | object nodes ending =>
    rw [scanPrimary_object, map_eq_ok] at hprimary
    obtain ⟨scanned, hscanned, _⟩ := hprimary
    have heq := resource_read_eq hscanned
    rw [Node.outline_of_value _ hnode, (Resource.shows_of_ofValue hresource).scanned_eq] at heq
    exact ⟨room, _, hnode, heq ▸ hscanned⟩
  | _ => simp [Node.value] at hnode

/-- A record that was read has the id of its resource. -/
theorem id_of_readOne {kind : Kind} {body : Bytes} {record : Record}
    (h : readOne kind body = .ok (some record)) {document : Document}
    (hparse : parse body = .ok document) {resource : Resource}
    (hprimary : document.primary = .one resource) : record.id = resource.id := by
  obtain ⟨other, resource', hreadable⟩ := readable_of_readOne h
  obtain rfl := Except.ok.inj (hparse.symm.trans hreadable.parsed)
  obtain rfl := Primary.one.inj (hprimary.symm.trans hreadable.primary)
  obtain ⟨attributes, targets, hread, _⟩ := readOne_of_readable hreadable
  obtain rfl := Option.some.inj (Except.ok.inj (h.symm.trans hread))
  rfl

theorem exists_reading {kind : Kind} {included? : Option Value} {v : Value} {record : Record}
    (h : ReadsAlone kind included? v record) : IncludedReads included? ∧
      ∃ reading : Reading kind included?, reading.value = v ∧ reading.record = record := by
  obtain ⟨body, members, hv, hdata, rfl, hread⟩ := h
  obtain ⟨held, found, hdecode, houtstanding, hsettled⟩ := (readOne_eq_some ..).mp hread
  obtain ⟨document, resource, hparse, hprimary, hrecord⟩ := (decodeOne_eq_some ..).mp hdecode
  obtain ⟨hprimaryRead, hincludedRead⟩ := (parse_eq_ok_iff hv document).mp hparse
  simp only [outstanding, ofJson, bind_eq_ok, mapError_eq_ok] at houtstanding
  obtain ⟨s, hscan, hfound⟩ := houtstanding
  rw [hdata, hprimary, Option.getD_some] at hprimaryRead
  have hresource := Primary.ofValue_eq_one hprimaryRead
  obtain ⟨id, _, hid, hheld⟩ := id_of_primaryRecord hrecord
  have hagree := (scan_agrees hparse hprimary hscan).1
  have hincludedScan : s.included =
      Scan.includedOf ((Members.get? members "included").getD .null) := by
    rw [scan_eq hv hscan]
    rfl
  rw [hid] at hagree
  obtain ⟨entries, hentries, rfl⟩ := (outstandingOfScan_eq_ok hagree found).mp hfound
  rw [mergeOwn_addEntries hheld, settled_eq_ok_iff] at hsettled
  rw [hincludedScan] at hentries
  refine ⟨⟨⟨_, hincludedRead⟩, fun w hw => exists_scanIncluded_of_scan hv hscan hw⟩,
    ⟨v, resource, id, held, entries, record, hresource, hid, ?_,
      exists_resource_scanned hv hscan hdata hresource, hheld,
      (id_of_readOne hread hparse hprimary).trans hid, hentries, hsettled⟩, rfl, rfl⟩
  intro other hother
  rw [hincludedRead] at hother
  rwa [primaryRecord_congr (included?_congr (Except.ok.inj hother).symm)]

variable {kind : Kind} {included? : Option Value}

theorem decodeMany_page {body : Bytes} {members : Members Value}
    (hv : Json.readWith (Node.value Node.maxDepth) body = .ok (.object members))
    (readings : List (Reading kind included?))
    (hdata : Members.get? members "data" = some (.array (readings.map Reading.value)))
    (hincluded : Members.get? members "included" = included?) (hreads : IncludedReads included?) :
    decodeMany kind body = .ok (readings.map Reading.held) := by
  obtain ⟨included, hparsed⟩ := hreads.parsed
  have hresources : ((readings.map Reading.value).map Value.canonical).mapM Resource.ofValue =
      .ok (readings.map Reading.resource) := by
    rw [List.map_map, List.mapM_map]
    exact mapM_of_forall fun reading _ => reading.read
  have hparse : parse body = .ok ⟨.many (readings.map Reading.resource), included⟩ := by
    rw [parse_eq_ok_iff hv, hdata, hincluded, Option.getD_some, Value.canonical_array]
    exact ⟨Primary.ofValue_array hresources, hparsed⟩
  have hbuilt : (readings.map Reading.resource).mapM
      (primaryRecord ⟨.many (readings.map Reading.resource), included⟩ kind) =
        .ok (readings.map Reading.held) := by
    rw [List.mapM_map]
    exact mapM_of_forall fun reading _ => reading.built _ hparsed
  simp only [decodeMany, hparse]
  exact hbuilt

/-- What the scan sees of a resource. -/
def Reading.scan (reading : Reading kind included?) : ScannedResource :=
  ⟨some reading.id, reading.resource.relationships⟩

theorem scanPrimary_page {room : Nat} {node : Node} {readings : List (Reading kind included?)}
    (hnode : node.value room = .ok (.array (readings.map Reading.value))) :
    scanPrimary room node = .ok (readings.map Reading.scan) := by
  cases node with
  | list items ending =>
    obtain ⟨inner, values, rfl, hvalues, hending, heq⟩ := Node.value_list hnode
    obtain rfl := Value.array.inj heq
    have hitems : items.mapM (resourceLayout.read inner) = .ok (readings.map Reading.scan) := by
      rw [Node.valueItems_iff, List.forall₂_map_right_iff] at hvalues
      rw [mapM_eq_ok_iff, List.forall₂_map_right_iff]
      apply hvalues.imp
      intro item reading hitem
      obtain ⟨room, node, hvalue, hread⟩ := reading.scanned
      rw [reading.identified] at hread
      exact resourceLayout_determined.agrees hvalue hitem hread
    simp only [scanPrimary, Node.items, bind_eq_ok, Node.enter_eq_ok, Json.refuse_eq_ok]
    exact ⟨inner, rfl, _, hitems, (), hending, rfl⟩
  | _ => simp [Node.value] at hnode

/-- A document can be scanned if its primary data and what it includes can. -/
theorem exists_scan_of_reads {body : Bytes} {members : Members Value}
    (hv : Json.readWith (Node.value Node.maxDepth) body = .ok (.object members))
    (honce : scanLayout.Once members) {data : Value}
    (hdata : Members.get? members "data" = some data)
    (hincluded : Members.get? members "included" = included?) (hreads : IncludedReads included?)
    (hprimary : CanRead scanPrimary data) : ∃ s, scan body = .ok s := by
  apply exists_scan hv honce
  · intro found hget
    exact Option.some.inj (hdata.symm.trans hget) ▸ hprimary
  · intro included hget
    obtain ⟨room, node, found, hnode, hfound⟩ :=
      hreads.scanned included (hincluded.symm.trans hget)
    exact scanIncluded_determined.canRead hnode hfound

theorem targets_of_scan {body : Bytes} {members : Members Value}
    (hv : Json.readWith (Node.value Node.maxDepth) body = .ok (.object members))
    (hincluded : Members.get? members "included" = included?) {s : Scan}
    (hscan : scan body = .ok s) :
    s.included.filterMap Identifier.target? = scannedTargets included? := by
  rw [scan_eq hv hscan, scannedTargets, ← hincluded]
  rfl

theorem scan_page {body : Bytes} {members : Members Value}
    (hv : Json.readWith (Node.value Node.maxDepth) body = .ok (.object members))
    (honce : scanLayout.Once members) (readings : List (Reading kind included?))
    (hdata : Members.get? members "data" = some (.array (readings.map Reading.value)))
    (hincluded : Members.get? members "included" = included?) (hreads : IncludedReads included?) :
    ∃ s, scan body = .ok s ∧ s.included.filterMap Identifier.target? = scannedTargets included? ∧
      s.primary = readings.map Reading.scan := by
  obtain ⟨s, hscan⟩ := exists_scan_of_reads hv honce hdata hincluded hreads
    fun _ _ hnode => ⟨_, scanPrimary_page hnode⟩
  obtain ⟨room, node, _, hnode, _⟩ := exists_scanPrimary_of_scan hv hscan hdata
  have hprimary := scanPrimary_eq (scanPrimary_page hnode)
  rw [Node.outline_of_value node hnode] at hprimary
  refine ⟨s, hscan, targets_of_scan hv hincluded hscan, ?_⟩
  rw [scan_eq hv hscan, hprimary, ← Option.getD_some (a := Value.array _) (b := .null), ← hdata]
  rfl

/-- With ids of their own, the entries under an id are those of the resource that has it. -/
theorem exists_entries_of_mem {s : Scan} {found : Members (List Outstanding)}
    (h : outstandingOfScan s = .ok found)
    (hnodup : (s.primary.filterMap ScannedResource.id).Nodup) {id : String}
    {relationships : Members Linkage} (hmem : ⟨some id, relationships⟩ ∈ s.primary) :
    ∃ entries, outstandingOf s.targets ⟨some id, relationships⟩ = .ok entries ∧
      (found.get? id).getD [] = entries := by
  have hlistable := (exists_outstandingOfScan_iff s).mp ⟨found, h⟩ _ hmem rfl
  obtain ⟨entries, hentries⟩ := (exists_outstandingOf_iff ..).mpr hlistable
  refine ⟨entries, hentries, ?_⟩
  rw [(get?_outstandingOfScan h id).1, entriesUnder_of_mem s.targets hnodup hmem,
    outstandingOf_eq hentries]

/-- With ids of their own, the resources of a page have their entries under these. -/
theorem outstanding_page {body : Bytes} {s : Scan} (hscan : scan body = .ok s)
    {readings : List (Reading kind included?)} (hprimary : s.primary = readings.map Reading.scan)
    (hincluded : s.included.filterMap Identifier.target? = scannedTargets included?)
    (hids : (readings.map Reading.id).Nodup) :
    ∃ found, outstanding body = .ok found ∧
      ∀ reading ∈ readings, (found.get? reading.id).getD [] = reading.entries := by
  have hlisted : ∃ found, outstandingOfScan s = .ok found := by
    rw [exists_outstandingOfScan_iff, hprimary, Scan.targets, hincluded]
    intro resource hresource _
    obtain ⟨reading, _, rfl⟩ := List.mem_map.mp hresource
    exact (exists_outstandingOf_iff ..).mp ⟨reading.entries, reading.listed⟩
  obtain ⟨found, hfound⟩ := hlisted
  refine ⟨found, (outstanding_eq_ok ..).mpr ⟨s, hscan, hfound⟩, ?_⟩
  intro reading hreading
  have hnodup : (s.primary.filterMap ScannedResource.id).Nodup := by
    rw [hprimary, List.filterMap_map]
    exact (List.filterMap_eq_map (f := Reading.id)).symm ▸ hids
  have hmem : reading.scan ∈ s.primary := hprimary ▸ List.mem_map_of_mem hreading
  obtain ⟨entries, hentries, hget⟩ := exists_entries_of_mem hfound hnodup hmem
  rw [Scan.targets, hincluded] at hentries
  rw [hget, Except.ok.inj (hentries.symm.trans reading.listed)]

theorem mergeAll_eq_ok_iff (found : Members (List Outstanding)) (helds records : List Record) :
    mergeAll found helds = (records, none) ↔
      List.Forall₂ (fun held record => mergeOwn found held = (record, none)) helds records := by
  induction helds generalizing records with
  | nil => cases records <;> simp [mergeAll]
  | cons held rest ih =>
    rw [mergeAll]
    rcases hown : mergeOwn found held with ⟨record, _ | fault⟩
    · cases records with
      | nil => simp
      | cons first others =>
        rw [List.forall₂_cons, hown, ← ih]
        rcases mergeAll found rest with ⟨merged, fault?⟩
        simp [and_assoc]
    · constructor
      · intro h
        simp at h
      · intro h
        cases h with
        | cons hfirst _ =>
          rw [hown] at hfirst
          simp at hfirst

theorem mergeOwn_reading (reading : Reading kind included?) {found : Members (List Outstanding)}
    (h : (found.get? reading.id).getD [] = reading.entries) :
    mergeOwn found reading.held = (reading.record, none) := by
  rw [mergeOwn, reading.held_id]
  exact (congrArg (merge reading.held) h).trans reading.merged

theorem exists_readings {values : List Value} {records : List Record}
    (h : List.Forall₂ (ReadsAlone kind included?) values records) :
    ∃ readings : List (Reading kind included?),
      readings.map Reading.value = values ∧ readings.map Reading.record = records := by
  induction h with
  | nil => exact ⟨[], rfl, rfl⟩
  | cons hv _ ih =>
    obtain ⟨reading, hvalue, hrecord⟩ := (exists_reading hv).2
    obtain ⟨readings, hvalues, hrecords⟩ := ih
    exact ⟨reading :: readings, congrArg₂ List.cons hvalue hvalues,
      congrArg₂ List.cons hrecord hrecords⟩

theorem readMany_eq_ok (kind : Kind) (body : Bytes) (records : List Record) :
    readMany kind body = .ok records ↔
      ∃ helds found, decodeMany kind body = .ok helds ∧ outstanding body = .ok found ∧
        mergeAll found helds = (records, none) := by
  simp only [readMany, bind_eq_ok, settled_eq_ok_iff, exists_and_left]

/-- A page of resources with ids of their own gives the records that each of them gives alone. -/
theorem readMany_of_readsAlone {body : Bytes} {members : Members Value}
    (hv : Json.readWith (Node.value Node.maxDepth) body = .ok (.object members))
    (honce : scanLayout.Once members) {values : List Value} {records : List Record}
    (hdata : Members.get? members "data" = some (.array values))
    (hincluded : Members.get? members "included" = included?) (hreads : IncludedReads included?)
    (halone : List.Forall₂ (ReadsAlone kind included?) values records)
    (hids : (records.map Record.id).Nodup) : readMany kind body = .ok records := by
  obtain ⟨readings, rfl, rfl⟩ := exists_readings halone
  have hown : (readings.map Reading.id).Nodup := by
    have hsome : (readings.map Reading.record).map Record.id =
        (readings.map Reading.id).map some := by
      rw [List.map_map, List.map_map]
      exact List.map_congr_left fun reading _ => reading.record_id
    rw [hsome] at hids
    exact hids.of_map
  obtain ⟨s, hscan, htargets, hprimary⟩ := scan_page hv honce readings hdata hincluded hreads
  have hdecode := decodeMany_page hv readings hdata hincluded hreads
  obtain ⟨found, houtstanding, hentries⟩ := outstanding_page hscan hprimary htargets hown
  refine (readMany_eq_ok ..).mpr ⟨_, found, hdecode, houtstanding, ?_⟩
  rw [mergeAll_eq_ok_iff, List.forall₂_map_left_iff, List.forall₂_map_right_iff, List.forall₂_same]
  exact fun reading hreading => mergeOwn_reading reading (hentries reading hreading)

end ResearchRecords.Document
