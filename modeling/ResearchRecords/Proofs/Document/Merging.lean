import ResearchRecords.Proofs.Document.Concordance

/-!
Merging after decoding. What is outstanding comes from the linkage of the primary resources, and
decoding has checked the kinds of all that a declared relationship names. So every entry has the
kind that its relationship declares, also where the entries of several resources with one id have
come together, and merging cannot fail. For the same reason the targets of a declared relationship are
never of several types.
-/
namespace ResearchRecords.Document

open Json (Members)
open Results

theorem sorted_of_mem_primary {body : Bytes} {members : Members Json.Value}
    (hv : Json.readWith (Json.Node.value Json.Node.maxDepth) body = .ok (.object members))
    {s : Scan} (hs : scan body = .ok s) {scanned : ScannedResource} (hmem : scanned ∈ s.primary) :
    Members.Sorted scanned.relationships := by
  have hprimary : s.primary = Scan.primaryOf ((Members.get? members "data").getD .null) := by
    rw [scan_eq hv hs]
    rfl
  have hofValue : ∃ v, scanned = ScannedResource.ofValue v := by
    rw [hprimary] at hmem
    unfold Scan.primaryOf at hmem
    split at hmem
    · exact ⟨_, List.mem_singleton.mp hmem⟩
    · obtain ⟨item, _, rfl⟩ := List.mem_map.mp hmem
      exact ⟨item, rfl⟩
    · exact absurd hmem List.not_mem_nil
  obtain ⟨v, rfl⟩ := hofValue
  exact Members.sorted_ordered _

/-- Every entry, under any id, is made of the linkage of a scanned resource. -/
theorem exists_scanned_of_entry {s : Scan} {found : Members (List Outstanding)}
    (h : outstandingOfScan s = .ok found) {id : String} {entry : Outstanding}
    (hentry : entry ∈ (found.get? id).getD []) :
    ∃ scanned ∈ s.primary, ∃ m ∈ scanned.relationships,
      Outstanding.outstanding? s.targets m = some entry := by
  rw [(get?_outstandingOfScan h id).1] at hentry
  obtain ⟨scanned, hscanned, hmem⟩ := List.mem_flatMap.mp hentry
  exact ⟨scanned, List.mem_of_mem_filter hscanned, List.mem_filterMap.mp hmem⟩

/-- Where decoding succeeds, the scan sees under each name the linkage of a primary resource that
was built. -/
theorem exists_linkage_of_scanned {kind : Kind} {body : Bytes} {records : List Record}
    (hdecode : decodeMany kind body = .ok records) {s : Scan} (hscan : scan body = .ok s)
    {scanned : ScannedResource} (hscanned : scanned ∈ s.primary) {m : String × Linkage}
    (hm : m ∈ scanned.relationships) :
    ∃ document resource record, parse body = .ok document ∧
      resource ∈ document.primary.resources ∧
      primaryRecord document kind resource = .ok record ∧ resource.linkage m.1 = m.2 := by
  obtain ⟨document, hparse, hrecords⟩ := primaryRecord_of_decodeMany hdecode
  obtain ⟨members, hv, _⟩ := exists_members_of_parse hparse
  have hsorted := sorted_of_mem_primary hv hscan hscanned
  have hprimary := primary_of_scan hparse hscan fun resource hmem => by
    obtain ⟨record, hrecord⟩ := hrecords resource hmem
    obtain ⟨id, _, hid, _⟩ := id_of_primaryRecord hrecord
    exact ⟨id, hid⟩
  rw [hprimary] at hscanned
  obtain ⟨resource, hmem, rfl⟩ := List.mem_map.mp hscanned
  obtain ⟨record, hrecord⟩ := hrecords resource hmem
  have hget : Members.get? resource.relationships m.1 = some m.2 :=
    (Members.get?_eq_some_iff hsorted.nodup_names m.1 m.2).mpr hm
  refine ⟨document, resource, record, hparse, hmem, hrecord, ?_⟩
  rw [Resource.linkage, hget]
  rfl

/-- So every entry is made of the linkage of such a resource. -/
theorem exists_linkage_of_entry {kind : Kind} {body : Bytes} {records : List Record}
    (hdecode : decodeMany kind body = .ok records) {found : Members (List Outstanding)}
    (hfound : outstanding body = .ok found) {id : String} {entry : Outstanding}
    (hentry : entry ∈ (found.get? id).getD []) :
    ∃ document resource record included, parse body = .ok document ∧
      resource ∈ document.primary.resources ∧
      primaryRecord document kind resource = .ok record ∧
      Outstanding.outstanding? included (entry.name, resource.linkage entry.name) =
        some entry := by
  simp only [outstanding, ofJson, bind_eq_ok, mapError_eq_ok] at hfound
  obtain ⟨s, hscan, hfound⟩ := hfound
  obtain ⟨scanned, hscanned, m, hm, heq⟩ := exists_scanned_of_entry hfound hentry
  obtain ⟨document, resource, record, hparse, hmem, hrecord, hlinkage⟩ :=
    exists_linkage_of_scanned hdecode hscan hscanned hm
  obtain ⟨hname, _⟩ := Outstanding.outstanding?_eq_some heq
  refine ⟨document, resource, record, s.targets, hparse, hmem, hrecord, ?_⟩
  rw [hname, hlinkage]
  exact heq

/-- A resource that was built names only targets of the declared kinds under the names that the
kind declares. -/
theorem kinds_of_primaryRecord {document : Document} {kind : Kind} {resource : Resource}
    {record : Record} (h : primaryRecord document kind resource = .ok record) {name : String}
    {r : Relationship} (hr : kind.relationship? name = some r) :
    ∀ target ∈ (resource.linkage name).targets, target.1 = r.target.name := by
  obtain ⟨_, _, hhydrate⟩ := (primaryRecord_eq_ok ..).mp h
  obtain ⟨_, _, _, _, hlinked, _⟩ := (hydrate_eq_ok_iff ..).mp hhydrate
  obtain ⟨hsource, rfl⟩ := Relationship.eq_of_relationship? hr
  obtain ⟨_, ⟨hkinds, _⟩, _⟩ := hlinked r hsource
  exact hkinds

/-- So only a name that the kind does not declare can have targets of several types. -/
theorem undeclared_of_mixed {document : Document} {kind : Kind} {resource : Resource}
    {record : Record} (hrecord : primaryRecord document kind resource = .ok record) {name : String}
    {included : List Target}
    (h : Outstanding.mixed? (Outstanding.missing included (resource.linkage name)) ≠ none) :
    kind.relationship? name = none := by
  by_contra hdeclared
  obtain ⟨r, hr⟩ := Option.ne_none_iff_exists'.mp hdeclared
  have hkinds := kinds_of_primaryRecord hrecord hr
  exact h (Outstanding.mixed?_eq_none fun t ht => hkinds t (List.mem_of_mem_filter ht))

theorem declared_of_outstanding {kind : Kind} {body : Bytes} {records : List Record}
    (hdecode : decodeMany kind body = .ok records) {found : Members (List Outstanding)}
    (hfound : outstanding body = .ok found) (id : String) :
    ∀ entry ∈ (found.get? id).getD [], entry.Declared kind := by
  intro entry hentry r hr
  obtain ⟨_, _, _, _, _, _, hrecord, heq⟩ := exists_linkage_of_entry hdecode hfound hentry
  obtain ⟨_, target, htarget, hkind⟩ := Outstanding.outstanding?_eq_some heq
  rw [hkind]
  exact kinds_of_primaryRecord hrecord hr target htarget

/-- What cannot be listed for its types is not declared. -/
theorem undeclared_of_mixedTargets {kind : Kind} {body : Bytes} {records : List Record}
    (hdecode : decodeMany kind body = .ok records) {name first second : String}
    (h : outstanding body = .error (.mixedTargets name first second)) :
    kind.relationship? name = none := by
  rcases outstanding_eq_error h with ⟨_, _, hfault⟩ |
    ⟨s, hscan, scanned, hscanned, m, hm, types, hmixed, hfault⟩
  · cases hfault
  · obtain ⟨rfl, _, _⟩ := Fault.mixedTargets.inj hfault
    obtain ⟨_, resource, _, _, _, hrecord, hlinkage⟩ :=
      exists_linkage_of_scanned hdecode hscan hscanned hm
    have hlinked :
        Outstanding.mixed? (Outstanding.missing s.targets (resource.linkage m.1)) ≠ none := by
      rw [hlinkage, hmixed]
      exact Option.some_ne_none types
    exact undeclared_of_mixed hrecord hlinked

theorem kind_of_decodeMany {kind : Kind} {body : Bytes} {records : List Record}
    (h : decodeMany kind body = .ok records) : ∀ record ∈ records, record.kind = kind := by
  obtain ⟨document, _, hrecords⟩ := (decodeMany_eq_ok ..).mp h
  intro record hmem
  obtain ⟨resource, _, hrecord⟩ := exists_mem_of_forall₂ hrecords.flip hmem
  exact hydrate_kind ((primaryRecord_eq_ok ..).mp hrecord).2.2

theorem exists_mergeOwn {kind : Kind} {body : Bytes} {records : List Record}
    (hdecode : decodeMany kind body = .ok records) {found : Members (List Outstanding)}
    (hfound : outstanding body = .ok found) {record : Record} (hmem : record ∈ records) :
    ∃ merged, mergeOwn found record = (merged, none) := by
  refine ⟨_, merge_of_declared record ?_⟩
  rw [kind_of_decodeMany hdecode record hmem]
  cases hid : record.id with
  | none => simp
  | some id => exact declared_of_outstanding hdecode hfound id

theorem exists_mergeAll {kind : Kind} {body : Bytes} {records : List Record}
    (hdecode : decodeMany kind body = .ok records) {found : Members (List Outstanding)}
    (hfound : outstanding body = .ok found) :
    ∃ merged, mergeAll found records = (merged, none) := by
  obtain ⟨merged, hmerged⟩ := exists_forall₂ fun record hmem =>
    exists_mergeOwn hdecode hfound hmem
  exact ⟨merged, (mergeAll_eq_ok_iff ..).mpr hmerged⟩

/-- A response of several records fails where it is decoded or where its entries are listed. -/
theorem readMany_eq_error {kind : Kind} {body : Bytes} {fault : Fault}
    (h : readMany kind body = .error fault) : decodeMany kind body = .error fault ∨
      (∃ records, decodeMany kind body = .ok records) ∧ outstanding body = .error fault := by
  rcases (bind_eq_error ..).mp h with h | ⟨records, hdecode, h⟩
  · exact .inl h
  · rcases (bind_eq_error ..).mp h with h | ⟨found, hfound, h⟩
    · exact .inr ⟨⟨records, hdecode⟩, h⟩
    · obtain ⟨merged, hmerged⟩ := exists_mergeAll hdecode hfound
      rw [(settled_eq_ok_iff ..).mpr hmerged] at h
      cases h

theorem exists_mergeOwn_of_decodeOne {kind : Kind} {body : Bytes} {record : Record}
    (hdecode : decodeOne kind body = .ok (some record)) {found : Members (List Outstanding)}
    (hfound : outstanding body = .ok found) : ∃ merged, mergeOwn found record = (merged, none) :=
  exists_mergeOwn (decodeMany_of_decodeOne hdecode) hfound (List.mem_singleton_self record)

theorem readOne_eq_error {kind : Kind} {body : Bytes} {fault : Fault}
    (h : readOne kind body = .error fault) : decodeOne kind body = .error fault ∨
      (∃ record, decodeOne kind body = .ok (some record)) ∧ outstanding body = .error fault := by
  rcases (bind_eq_error ..).mp h with h | ⟨record?, hdecode, h⟩
  · exact .inl h
  · cases record? with
    | none => exact absurd h (pure_ne_error _ fault)
    | some record =>
      rcases (bind_eq_error ..).mp h with h | ⟨found, hfound, h⟩
      · exact .inr ⟨⟨record, hdecode⟩, h⟩
      · obtain ⟨merged, hmerged⟩ := exists_mergeOwn_of_decodeOne hdecode hfound
        rw [(settled_eq_ok_iff ..).mpr hmerged] at h
        exact absurd h (pure_ne_error _ fault)

theorem outstanding_ne_targetKind (body : Bytes) (name : String) (expected : Kind)
    (type : String) : outstanding body ≠ .error (.targetKind name expected type) := by
  intro h
  rcases outstanding_eq_error h with ⟨_, _, hfault⟩ | ⟨_, _, _, _, _, _, _, _, hfault⟩
  · cases hfault
  · cases hfault

end ResearchRecords.Document
