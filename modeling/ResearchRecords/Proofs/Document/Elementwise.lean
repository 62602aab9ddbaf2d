import ResearchRecords.Proofs.Document.Pages
import ResearchRecords.Proofs.Json.Written

/-!
A page, element by element. A page can be read exactly if each of its resources can be read as the
one resource of a document with the same resources included, and its records are then the records of
these documents in their order. A resource of the page never depends on another one.
-/
namespace ResearchRecords.Document

open Json (Value Members Node CanRead)
open Results

/-- A text of an object without repeated names that has this primary data and this under the name
for what is included. -/
def IsDocument (data : Value) (included? : Option Value) (body : Bytes) : Prop :=
  ∃ members, Json.readWith (Node.value Node.maxDepth) body = .ok (.object members) ∧
    (Members.names members).Nodup ∧ Members.get? members "data" = some data ∧
    Members.get? members "included" = included?

def isObject : Value → Bool
  | .object _ => true
  | _ => false

/-- The id of a resource that is an object, if it is a string. -/
def valueId (resource : Value) : Option String :=
  textOf (Members.get? (resource.members []) "id")

variable {kind : Kind} {included? : Option Value}

theorem exists_members_of_isObject {v : Value} (h : isObject v = true) :
    ∃ members, v = .object members := by
  cases v with
  | object members => exact ⟨members, rfl⟩
  | _ => simp [isObject] at h

theorem Primary.ofValue_object {v : Value} (hobject : isObject v = true) {resource : Resource}
    (h : Resource.ofValue v.canonical = .ok resource) :
    Primary.ofValue v.canonical = .ok (.one resource) := by
  obtain ⟨members, rfl⟩ := exists_members_of_isObject hobject
  rw [Value.canonical_object] at h ⊢
  simp only [Primary.ofValue, h]

/-- Primary data that is an object is not taken for nothing. -/
theorem Primary.ofValue_ne_empty {v : Value} (hobject : isObject v = true) :
    Primary.ofValue v.canonical ≠ .ok .empty := by
  obtain ⟨members, rfl⟩ := exists_members_of_isObject hobject
  intro h
  rcases Primary.ofValue_cases h with ⟨hnull, _⟩ | ⟨_, _, _, heq, _⟩ | ⟨_, heq, _⟩
  · simp [Value.canonical_object] at hnull
  · cases heq
  · cases heq

theorem valueId_eq {v : Value} (hobject : isObject v = true) {resource : Resource}
    (h : Resource.ofValue v.canonical = .ok resource) : valueId v = resource.id := by
  obtain ⟨members, rfl⟩ := exists_members_of_isObject hobject
  exact congrArg ScannedResource.id (Resource.shows_of_ofValue h).scanned_eq

theorem canRead_scanPrimary_of_reading (reading : Reading kind included?)
    (hobject : isObject reading.value = true) : CanRead scanPrimary reading.value := by
  obtain ⟨members, hmembers⟩ := exists_members_of_isObject hobject
  obtain ⟨inner, other, hother, hread⟩ := reading.scanned
  have hresource := resourceLayout_determined.canRead hother hread
  rw [hmembers] at hresource ⊢
  exact canRead_scanPrimary hresource

/-- A resource alone gives the record of its reading. -/
theorem readOne_of_reading (reading : Reading kind included?)
    (hobject : isObject reading.value = true) (hreads : IncludedReads included?) {body : Bytes}
    (h : IsDocument reading.value included? body) :
    readOne kind body = .ok (some reading.record) := by
  obtain ⟨members, hv, hnodup, hdata, hincluded⟩ := h
  obtain ⟨included, hparsed⟩ := hreads.parsed
  have hparse : parse body = .ok ⟨.one reading.resource, included⟩ := by
    rw [parse_eq_ok_iff hv, hdata, hincluded]
    exact ⟨Primary.ofValue_object hobject reading.read, hparsed⟩
  have hdecode : decodeOne kind body = .ok (some reading.held) :=
    (decodeOne_eq_some ..).mpr ⟨_, _, hparse, rfl, reading.built _ hparsed⟩
  obtain ⟨s, hscan⟩ := exists_scan_of_reads hv (Json.Layout.once_of_nodup hnodup) hdata hincluded
    hreads (canRead_scanPrimary_of_reading reading hobject)
  have hprimary : s.primary = [⟨some reading.id, reading.resource.relationships⟩] := by
    rw [(scan_agrees hparse rfl hscan).1, reading.identified]
  have houtstanding : outstanding body = .ok (addEntries [] reading.id reading.entries) := by
    simp only [outstanding, ofJson, bind_eq_ok, mapError_eq_ok]
    refine ⟨s, hscan, (outstandingOfScan_eq_ok hprimary _).mpr ⟨reading.entries, ?_, rfl⟩⟩
    rw [targets_of_scan hv hincluded hscan]
    exact reading.listed
  refine (readOne_eq_some ..).mpr ⟨_, _, hdecode, houtstanding, ?_⟩
  rw [mergeOwn_addEntries reading.held_id, reading.merged]
  rfl

/-- A document of one object gives a record if it can be read. -/
theorem exists_record_of_readOne {v : Value} (hobject : isObject v = true) {body : Bytes}
    (h : IsDocument v included? body) {record? : Option Record}
    (hread : readOne kind body = .ok record?) : ∃ record, record? = some record := by
  cases record? with
  | some record => exact ⟨record, rfl⟩
  | none =>
    obtain ⟨members, hv, _, hdata, _⟩ := h
    obtain ⟨document, hparse, hempty⟩ := (decodeOne_eq_none ..).mp ((readOne_eq_none ..).mp hread)
    have hprimary := ((parse_eq_ok_iff hv document).mp hparse).1
    rw [hdata, Option.getD_some, hempty] at hprimary
    exact absurd hprimary (Primary.ofValue_ne_empty hobject)

theorem valueId_of_readsAlone {v : Value} (hobject : isObject v = true) {record : Record}
    (h : ReadsAlone kind included? v record) : ∃ id, valueId v = some id ∧ record.id = some id := by
  obtain ⟨reading, rfl, rfl⟩ := (exists_reading h).2
  exact ⟨reading.id, (valueId_eq hobject reading.read).trans reading.identified, reading.record_id⟩

/-- A list of objects is read as several resources, never as the list of one's fields. -/
theorem Primary.eq_many_of_objects {values : List Value}
    (hobjects : ∀ v ∈ values, isObject v = true) {primary : Primary}
    (h : Primary.ofValue (Value.array values).canonical = .ok primary) :
    ∃ resources, primary = .many resources ∧
      List.Forall₂ (fun v resource => Resource.ofValue v.canonical = .ok resource) values
        resources := by
  rw [Value.canonical_array] at h
  rcases Primary.ofValue_cases h with ⟨hnull, _⟩ | ⟨_, resources, hitems, hmany, hread⟩ |
    ⟨resource, _, hone⟩
  · cases hnull
  · obtain rfl := Value.array.inj hitems
    exact ⟨resources, hmany, List.forall₂_map_left_iff.mp ((mapM_eq_ok_iff ..).mp hread)⟩
  · cases values with
    | nil => simp [Resource.ofValue, Resource.ofItems] at hone
    | cons first rest =>
      obtain ⟨members, rfl⟩ := exists_members_of_isObject (hobjects first (List.mem_cons_self ..))
      rw [List.map_cons, Value.canonical_object] at hone
      simp [Resource.ofValue, Resource.ofItems, Resource.readType] at hone

/-- The reading of a resource of this value ends in the record. -/
def ReadsAs (kind : Kind) (included? : Option Value) (v : Value) (record : Record) : Prop :=
  ∃ reading : Reading kind included?, reading.value = v ∧ reading.record = record

/-- The steps by which a page reads a resource, put together. -/
theorem reads_of_steps {v : Value} (hobject : isObject v = true)
    (hscanned : ∃ room node, node.value room = .ok v ∧
      resourceLayout.read room node = .ok (ScannedResource.ofValue v))
    {resource : Resource} (hresource : Resource.ofValue v.canonical = .ok resource)
    {document : Document} (hparsed : readIncluded (included?.getD .null).canonical =
      .ok document.included) {held : Record}
    (hheld : primaryRecord document kind resource = .ok held) {s : Scan}
    (htargets : s.included.filterMap Identifier.target? = scannedTargets included?)
    {found : Members (List Outstanding)} (hfound : outstandingOfScan s = .ok found)
    (hnodup : (s.primary.filterMap ScannedResource.id).Nodup)
    (hmem : ScannedResource.ofValue v ∈ s.primary) {record : Record}
    (hmerged : mergeOwn found held = (record, none)) : ReadsAs kind included? v record := by
  obtain ⟨id, _, hid, hheldId⟩ := id_of_primaryRecord hheld
  have hshown : ScannedResource.ofValue v = ⟨resource.id, resource.relationships⟩ := by
    obtain ⟨members, rfl⟩ := exists_members_of_isObject hobject
    exact (Resource.shows_of_ofValue hresource).scanned_eq
  rw [hshown] at hscanned hmem
  rw [hid] at hmem
  -- No other resource has this id, so the entries under it are those of this resource.
  obtain ⟨entries, hlisted, hentries⟩ := exists_entries_of_mem hfound hnodup hmem
  rw [Scan.targets, htargets] at hlisted
  have hmerge : merge held entries = (record, none) := by
    rw [mergeOwn, hheldId] at hmerged
    exact (congrArg (merge held) hentries).symm.trans hmerged
  have hrecordId : record.id = some id := by
    rw [← hheldId, ← id_merge held entries, hmerge]
  refine ⟨⟨v, resource, id, held, entries, record, hresource, hid, ?_, hscanned, hheldId, hrecordId,
    hlisted, hmerge⟩, rfl, rfl⟩
  intro other hother
  rw [hparsed] at hother
  rwa [primaryRecord_congr (included?_congr (Except.ok.inj hother).symm)]

theorem reads_of_readMany {values : List Value} {page : Bytes}
    (hpage : IsDocument (.array values) included? page)
    (hobjects : ∀ v ∈ values, isObject v = true) (hids : (values.filterMap valueId).Nodup)
    {records : List Record} (h : readMany kind page = .ok records) :
    IncludedReads included? ∧ List.Forall₂ (ReadsAs kind included?) values records := by
  obtain ⟨members, hv, _, hdata, hincluded⟩ := hpage
  obtain ⟨helds, found, hdecode, houtstanding, hmerge⟩ := (readMany_eq_ok ..).mp h
  simp only [decodeMany, bind_eq_ok] at hdecode
  obtain ⟨document, hparse, hdecode⟩ := hdecode
  obtain ⟨hprimary, hparsed⟩ := (parse_eq_ok_iff hv document).mp hparse
  rw [hincluded] at hparsed
  rw [hdata, Option.getD_some] at hprimary
  obtain ⟨resources, hmany, hresources⟩ := Primary.eq_many_of_objects hobjects hprimary
  rw [hmany] at hdecode
  simp only [outstanding, ofJson, bind_eq_ok, mapError_eq_ok] at houtstanding
  obtain ⟨s, hscan, hfound⟩ := houtstanding
  have hscanned : s.primary = values.map ScannedResource.ofValue := by
    rw [scan_eq hv hscan]
    show Scan.primaryOf ((Members.get? members "data").getD .null) = _
    rw [hdata]
    rfl
  have hnodup : (s.primary.filterMap ScannedResource.id).Nodup := by
    have heq : values.filterMap (ScannedResource.id ∘ ScannedResource.ofValue) =
        values.filterMap valueId := by
      apply List.filterMap_congr
      intro v hmem
      obtain ⟨members, rfl⟩ := exists_members_of_isObject (hobjects v hmem)
      rfl
    rwa [hscanned, List.filterMap_map, heq]
  refine ⟨⟨⟨_, hparsed⟩, fun w hw => exists_scanIncluded_of_scan hv hscan (hincluded.trans hw)⟩, ?_⟩
  -- Element by element: the value is read, its record is built, and what is outstanding is merged.
  have hsteps := forall₂_comp hresources
    (forall₂_comp ((mapM_eq_ok_iff ..).mp hdecode) ((mergeAll_eq_ok_iff ..).mp hmerge))
  refine ((List.forall₂_and_left ..).mpr ⟨fun v (hmem : v ∈ values) => hmem, hsteps⟩).imp ?_
  rintro v record ⟨hmem, resource, hresource, held, hheld, hown⟩
  exact reads_of_steps (hobjects v hmem) (exists_item_scanned hv hscan hdata hmem) hresource hparsed
    hheld (targets_of_scan hv hincluded hscan) hfound hnodup
    (hscanned ▸ List.mem_map_of_mem hmem) hown

theorem nodup_ids_of_readsAlone {values : List Value} (hobjects : ∀ v ∈ values, isObject v = true)
    (hids : (values.filterMap valueId).Nodup) {records : List Record}
    (h : List.Forall₂ (ReadsAlone kind included?) values records) :
    (records.map Record.id).Nodup := by
  have heq : records.map Record.id = (values.filterMap valueId).map some := by
    clear hids
    induction h with
    | nil => rfl
    | cons hfirst _ ih =>
      obtain ⟨hobject, hobjects⟩ := List.forall_mem_cons.mp hobjects
      obtain ⟨id, hvalue, hrecord⟩ := valueId_of_readsAlone hobject hfirst
      rw [List.map_cons, hrecord, ih hobjects, List.filterMap_cons_some hvalue, List.map_cons]
  rw [heq]
  exact hids.map (Option.some_injective String)

/-- A page of objects with ids of their own can be read exactly if each of them can be read as the
one resource of a document that includes the same; its records are then the records of these
documents, in their order. -/
theorem readMany_iff_readOne (kind : Kind) {values : List Value} {included? : Option Value}
    {page : Bytes} {singles : List Bytes} (hpage : IsDocument (.array values) included? page)
    (hsingles : List.Forall₂ (fun v single => IsDocument v included? single) values singles)
    (hne : values ≠ []) (hobjects : ∀ v ∈ values, isObject v = true)
    (hids : (values.filterMap valueId).Nodup) :
    ((∃ records, readMany kind page = .ok records) ↔
        ∀ single ∈ singles, ∃ record?, readOne kind single = .ok record?) ∧
      ∀ records, readMany kind page = .ok records →
        List.Forall₂ (fun single record => readOne kind single = .ok (some record)) singles
          records := by
  have hcomplete : ∀ records, readMany kind page = .ok records →
      List.Forall₂ (fun single record => readOne kind single = .ok (some record)) singles
        records := by
    intro records h
    obtain ⟨hreads, hrecords⟩ := reads_of_readMany hpage hobjects hids h
    have hdocuments := (List.forall₂_and_left ..).mpr ⟨hobjects, hsingles⟩
    refine (forall₂_comp hdocuments.flip hrecords).imp ?_
    rintro single record ⟨_, ⟨hobject, hsingle⟩, reading, rfl, rfl⟩
    exact readOne_of_reading reading hobject hreads hsingle
  refine ⟨⟨?_, ?_⟩, hcomplete⟩
  · rintro ⟨records, h⟩ single hmem
    obtain ⟨record, _, hread⟩ := exists_mem_of_forall₂ (hcomplete records h) hmem
    exact ⟨some record, hread⟩
  · intro hall
    have halone : ∀ v ∈ values, ∃ record, ReadsAlone kind included? v record := by
      intro v hmem
      obtain ⟨single, hsingle, hdocument⟩ := exists_mem_of_forall₂ hsingles hmem
      obtain ⟨record?, hread⟩ := hall single hsingle
      obtain ⟨record, rfl⟩ := exists_record_of_readOne (hobjects v hmem) hdocument hread
      obtain ⟨members, hv, _, hdata, hincluded⟩ := hdocument
      exact ⟨record, single, members, hv, hdata, hincluded, hread⟩
    obtain ⟨records, hrecords⟩ := exists_forall₂ halone
    obtain ⟨members, hv, hnodup, hdata, hincluded⟩ := hpage
    obtain ⟨first, hfirst⟩ := List.exists_mem_of_ne_nil values hne
    obtain ⟨record, hfirst⟩ := halone first hfirst
    exact ⟨records, readMany_of_readsAlone hv (Json.Layout.once_of_nodup hnodup) hdata hincluded
      (exists_reading hfirst).1 hrecords (nodup_ids_of_readsAlone hobjects hids hrecords)⟩

def sharing (id : String) (repositories : List String) : Value :=
  let identifier (id : String) : Value :=
    .object [("id", .string id), ("type", .string "repository")]
  .object [("id", .string id), ("relationships", .object [("repositories", .object
    [("data", .array (repositories.map identifier))])]), ("type", .string "submission")]

def shared : Value := .array [.object [("id", .string "7"), ("type", .string "repository")]]

def besideShared (data : Value) : Value := .object [("data", data), ("included", shared)]

theorem isDocument_besideShared {data : Value} (h : data.Plain 126) :
    IsDocument data (some shared) (besideShared data).toBytes := by
  have hplain : (besideShared data).Plain Node.maxDepth := by
    simp [besideShared, shared, Node.maxDepth, h]
  refine ⟨[("data", data), ("included", shared)], ?_, ?_, rfl, rfl⟩
  · rw [Json.readWith_toBytes hplain, Node.value_tree hplain, besideShared]
  · show ["data", "included"].Nodup
    decide

def sharingPage : Bytes :=
  (besideShared (.array [sharing "1" ["7", "8"], sharing "2" ["7"]])).toBytes

theorem readMany_iff_readOne_sharing : ∃ first second,
    readMany .submission sharingPage = .ok [first, second] ∧
      first.targetIds .submissionRepositories = [some "7", some "8"] ∧
      second.targetIds .submissionRepositories = [some "7"] ∧
      readOne .submission (besideShared (sharing "1" ["7", "8"])).toBytes = .ok (some first) ∧
      readOne .submission (besideShared (sharing "2" ["7"])).toBytes = .ok (some second) := by
  have hread : (readMany .submission sharingPage).toOption.isSome = true ∧
      ((readMany .submission sharingPage).toOption.getD []).map
        (fun record => record.targetIds .submissionRepositories) =
          [[some "7", some "8"], [some "7"]] := by decide +kernel
  have hrecords := eq_ok_getD hread.1 []
  obtain ⟨first, _, hlist, hone, hrest⟩ := List.map_eq_cons_iff.mp hread.2
  obtain ⟨second, _, rfl, htwo, hnil⟩ := List.map_eq_cons_iff.mp hrest
  obtain rfl := List.map_eq_nil_iff.mp hnil
  rw [hlist] at hrecords
  have hall := (readMany_iff_readOne .submission
    (isDocument_besideShared (by simp [sharing]) :
      IsDocument (.array [sharing "1" ["7", "8"], sharing "2" ["7"]]) (some shared) sharingPage)
    (.cons (isDocument_besideShared (by simp [sharing]))
      (.cons (isDocument_besideShared (by simp [sharing])) .nil))
    (by simp) (by simp [sharing, isObject]) (by decide)).2 _ hrecords
  obtain ⟨hfirst, hrest⟩ := List.forall₂_cons.mp hall
  exact ⟨first, second, hrecords, hone, htwo, hfirst, (List.forall₂_cons.mp hrest).1⟩

end ResearchRecords.Document
