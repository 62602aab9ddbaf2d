import ResearchRecords.Proofs.Document.Agreement
import ResearchRecords.Proofs.Document.Scannable
import ResearchRecords.Proofs.Document.Stubs
import ResearchRecords.Proofs.Json.Written
import ResearchRecords.Proofs.Text.Utf8

/-!
What is outstanding, told from what the text of a response stands for. Listing fails exactly where a
primary resource with an id has a relationship with remaining targets of several types. Otherwise
the entries under an id are those of all primary resources that have it, in the order of the
document, and of each resource in the order of the bytes of its names.
-/
namespace ResearchRecords

open Json (Value Members Node)
open Results

namespace Json.Members

variable {α : Type}

/-- The names are in the order of their bytes. -/
def ByteOrder (a b : String × α) : Prop := Text.Utf8.encode a.1 ≤ Text.Utf8.encode b.1

instance : DecidableRel (ByteOrder (α := α)) := fun a b =>
  inferInstanceAs (Decidable (Text.Utf8.encode a.1 ≤ Text.Utf8.encode b.1))

theorem byteOrder_iff (a b : String × α) : ByteOrder a b ↔ a.1 ≤ b.1 :=
  Text.Utf8.encode_le_iff a.1 b.1

/-- Members in the order of the bytes of their names. -/
def byBytes (members : Members α) : Members α := members.insertionSort ByteOrder

theorem mem_byBytes {members : Members α} {m : String × α} : m ∈ byBytes members ↔ m ∈ members :=
  List.mem_insertionSort ByteOrder

theorem pairwise_byBytes (members : Members α) :
    (byBytes members).Pairwise fun a b => a.1 ≤ b.1 := by
  have : Std.Total (ByteOrder (α := α)) :=
    ⟨fun a b => by simpa only [byteOrder_iff] using le_total a.1 b.1⟩
  have : IsTrans (String × α) ByteOrder :=
    ⟨fun a b c => by simpa only [byteOrder_iff] using le_trans⟩
  exact (List.pairwise_insertionSort ByteOrder members).imp fun h => (byteOrder_iff ..).mp h

/-- Members without repeated names are in order as soon as they are in the order of their bytes. -/
theorem ordered_eq_byBytes {members : Members α} (hnodup : (names members).Nodup) :
    ordered members = byBytes members := by
  have hperm : (byBytes members).Perm members := List.perm_insertionSort ByteOrder members
  have hnames : (names (byBytes members)).Nodup := (hperm.map Prod.fst).nodup_iff.mpr hnodup
  have hsorted : Sorted (byBytes members) :=
    ((pairwise_byBytes members).and (List.pairwise_map.mp hnames)).imp fun h => lt_of_le_of_ne h.1 h.2
  apply (sorted_ordered members).ext hsorted
  intro name
  rw [get?_ordered]
  apply Option.ext
  intro value
  rw [get?_eq_some_iff hnodup, get?_eq_some_iff hnames, hperm.mem_iff]

end Json.Members

namespace Document

def Scan.targets (s : Scan) : List Target := s.included.filterMap Identifier.target?

/-- A resource without an id, or one whose relationships each miss targets of one type only. -/
def Listable (included : List Target) (resource : ScannedResource) : Prop :=
  resource.id.isSome → ∀ m ∈ resource.relationships,
    Outstanding.mixed? (Outstanding.missing included m.2) = none

theorem addResource_eq_ok (included : List Target) (found next : Members (List Outstanding))
    (id : String) (relationships : Members Linkage) :
    addResource included found ⟨some id, relationships⟩ = .ok next ↔
      ∃ entries, outstandingOf included ⟨some id, relationships⟩ = .ok entries ∧
        addEntries found id entries = next := by
  simp only [addResource, bind_eq_ok, pure_eq_ok]

theorem exists_addResource_iff (included : List Target) (found : Members (List Outstanding))
    (resource : ScannedResource) :
    (∃ next, addResource included found resource = .ok next) ↔ Listable included resource := by
  obtain ⟨id?, relationships⟩ := resource
  cases id? with
  | none => simp [addResource, Listable]
  | some id =>
    simp only [Listable, Option.isSome_some, true_implies, addResource_eq_ok]
    rw [← exists_outstandingOf_iff included ⟨some id, relationships⟩]
    constructor
    · rintro ⟨_, entries, hentries, _⟩
      exact ⟨entries, hentries⟩
    · rintro ⟨entries, hentries⟩
      exact ⟨_, entries, hentries, rfl⟩

/-- Listing succeeds exactly if every resource can be listed. -/
theorem exists_outstandingOfScan_iff (s : Scan) :
    (∃ found, outstandingOfScan s = .ok found) ↔
      ∀ resource ∈ s.primary, Listable s.targets resource :=
  exists_foldlM_iff (exists_addResource_iff s.targets) []

/-- Why what is outstanding cannot be listed: the scan fails, or a linkage misses targets of
several types. -/
theorem outstanding_eq_error {body : Bytes} {fault : Fault} (h : outstanding body = .error fault) :
    (∃ json, scan body = .error json ∧ fault = .json json) ∨
      ∃ s, scan body = .ok s ∧ ∃ scanned ∈ s.primary, ∃ m ∈ scanned.relationships,
        ∃ types, Outstanding.mixed? (Outstanding.missing s.targets m.2) = some types ∧
          fault = .mixedTargets m.1 types.1 types.2 := by
  rcases (bind_eq_error ..).mp h with h | ⟨s, hscan, h⟩
  · obtain ⟨json, hjson, rfl⟩ := (mapError_eq_error ..).mp h
    exact .inl ⟨json, hjson, rfl⟩
  · obtain ⟨⟨id?, relationships⟩, hmem, before, h⟩ := exists_of_foldlM_eq_error h
    refine .inr ⟨s, (mapError_eq_ok ..).mp hscan, _, hmem, ?_⟩
    cases id? with
    | none => exact absurd h (pure_ne_error _ fault)
    | some id =>
      rcases (bind_eq_error ..).mp h with h | ⟨_, _, h⟩
      · rcases (bind_eq_error ..).mp h with h | ⟨_, _, h⟩
        · obtain ⟨m, hm, h⟩ := exists_of_mapM_eq_error h
          exact ⟨m, hm, Outstanding.ofTargets_eq_error h⟩
        · exact absurd h (pure_ne_error _ fault)
      · exact absurd h (pure_ne_error _ fault)

theorem outstanding_eq_ok (body : Bytes) (found : Members (List Outstanding)) :
    outstanding body = .ok found ↔ ∃ s, scan body = .ok s ∧ outstandingOfScan s = .ok found := by
  simp only [outstanding, ofJson, bind_eq_ok, mapError_eq_ok]

/-- Of a text that is scanned, only targets of several types can be wrong. -/
theorem outstanding_mixes_iff {body : Bytes} {s : Scan} (hscan : scan body = .ok s) :
    (∃ name first second, outstanding body = .error (.mixedTargets name first second)) ↔
      ∃ resource ∈ s.primary, ¬ Listable s.targets resource := by
  have hlisted : (¬ ∃ found, outstanding body = .ok found) ↔
      ∃ resource ∈ s.primary, ¬ Listable s.targets resource := by
    simp [outstanding_eq_ok, hscan, exists_outstandingOfScan_iff]
  rw [← hlisted]
  constructor
  · rintro ⟨name, first, second, h⟩ ⟨found, hfound⟩
    cases hfound.symm.trans h
  · intro hnone
    obtain ⟨fault, hfault⟩ := (exists_error_iff _).mpr hnone
    rcases outstanding_eq_error hfault with ⟨json, hjson, _⟩ | ⟨_, _, _, _, _, _, _, _, rfl⟩
    · cases hscan.symm.trans hjson
    · exact ⟨_, _, _, hfault⟩

/-- Lists of entries by ids, none of them empty. -/
structure Grouped (found : Members (List Outstanding)) : Prop where
  sorted : Members.Sorted found
  ne_nil : ∀ id, found.get? id ≠ some []

theorem grouped_nil : Grouped [] := ⟨Members.sorted_nil, by simp⟩

theorem Grouped.of_addEntries {found : Members (List Outstanding)} (h : Grouped found)
    (id : String) (entries : List Outstanding) : Grouped (addEntries found id entries) := by
  unfold addEntries
  split
  · exact h
  · next hne =>
    refine ⟨Members.sorted_insert h.sorted _ _, fun other => ?_⟩
    rw [Members.get?_insert h.sorted]
    split
    · intro hnil
      have happend := List.append_eq_nil_iff.mp (Option.some.inj hnil)
      exact hne (List.isEmpty_iff.mpr happend.2)
    · exact h.ne_nil other

theorem Grouped.getD_addEntries {found : Members (List Outstanding)} (h : Grouped found)
    (id : String) (entries : List Outstanding) (other : String) :
    ((addEntries found id entries).get? other).getD [] =
      (found.get? other).getD [] ++ if id = other then entries else [] := by
  unfold addEntries
  by_cases hempty : entries.isEmpty
  · rw [if_pos hempty, List.isEmpty_iff.mp hempty, ite_self, List.append_nil]
  · rw [if_neg hempty, Members.get?_insert h.sorted]
    by_cases hid : id = other
    · rw [if_pos hid, if_pos hid, hid, Option.getD_some]
    · rw [if_neg hid, if_neg hid, List.append_nil]

/-- The entries of the resources that have an id, one resource after the other. -/
def entriesUnder (included : List Target) (resources : List ScannedResource) (id : String) :
    List Outstanding :=
  (resources.filter fun resource => resource.id = some id).flatMap
    fun resource => resource.relationships.filterMap (Outstanding.outstanding? included)

theorem entriesUnder_cons (included : List Target) (resource : ScannedResource)
    (rest : List ScannedResource) (id : String) :
    entriesUnder included (resource :: rest) id =
      entriesUnder included [resource] id ++ entriesUnder included rest id := by
  rw [entriesUnder, List.filter_cons]
  by_cases hid : resource.id = some id
  · simp [entriesUnder, hid]
  · simp [entriesUnder, hid]

theorem Grouped.of_addResource {included : List Target} {start next : Members (List Outstanding)}
    {resource : ScannedResource} (hstart : Grouped start)
    (h : addResource included start resource = .ok next) : Grouped next ∧ ∀ id,
      (next.get? id).getD [] = (start.get? id).getD [] ++ entriesUnder included [resource] id := by
  obtain ⟨id?, relationships⟩ := resource
  cases id? with
  | none =>
    obtain rfl := (pure_eq_ok ..).mp h
    exact ⟨hstart, fun _ => (List.append_nil _).symm⟩
  | some own =>
    obtain ⟨entries, hentries, rfl⟩ := (addResource_eq_ok ..).mp h
    obtain rfl := outstandingOf_eq hentries
    refine ⟨hstart.of_addEntries own _, fun id => ?_⟩
    rw [hstart.getD_addEntries]
    by_cases hid : own = id
    · simp [entriesUnder, hid]
    · simp [entriesUnder, hid]

theorem Grouped.of_foldlM {included : List Target} {resources : List ScannedResource}
    {start found : Members (List Outstanding)} (hstart : Grouped start)
    (h : resources.foldlM (addResource included) start = .ok found) : Grouped found ∧ ∀ id,
      (found.get? id).getD [] = (start.get? id).getD [] ++ entriesUnder included resources id := by
  induction resources generalizing start with
  | nil =>
    obtain rfl := (pure_eq_ok ..).mp h
    exact ⟨hstart, fun _ => (List.append_nil _).symm⟩
  | cons resource rest ih =>
    rw [List.foldlM_cons, bind_eq_ok] at h
    obtain ⟨next, hnext, hrest⟩ := h
    obtain ⟨hgrouped, hfirst⟩ := hstart.of_addResource hnext
    obtain ⟨hfound, hlater⟩ := ih hgrouped hrest
    refine ⟨hfound, fun id => ?_⟩
    rw [hlater, hfirst, List.append_assoc, ← entriesUnder_cons]

/-- Under an id are the entries of all resources that have it, and it is listed only if there are
any. -/
theorem get?_outstandingOfScan {s : Scan} {found : Members (List Outstanding)}
    (h : outstandingOfScan s = .ok found) (id : String) :
    (found.get? id).getD [] = entriesUnder s.targets s.primary id ∧ found.get? id ≠ some [] := by
  obtain ⟨hgrouped, hentries⟩ := grouped_nil.of_foldlM h
  exact ⟨hentries id, hgrouped.ne_nil id⟩

/-- With ids of their own, the entries under an id are those of the resource that has it. -/
theorem entriesUnder_of_mem (included : List Target) {resources : List ScannedResource}
    (hnodup : (resources.filterMap ScannedResource.id).Nodup) {id : String}
    {relationships : Members Linkage} (hmem : ⟨some id, relationships⟩ ∈ resources) :
    entriesUnder included resources id =
      relationships.filterMap (Outstanding.outstanding? included) := by
  induction resources with
  | nil => exact absurd hmem List.not_mem_nil
  | cons resource rest ih =>
    rw [entriesUnder_cons]
    rcases List.mem_cons.mp hmem with rfl | hmem
    · have hid : (⟨some id, relationships⟩ : ScannedResource).id = some id := rfl
      rw [List.filterMap_cons_some hid, List.nodup_cons] at hnodup
      have hrest : rest.filter (fun resource => resource.id = some id) = [] := by
        rw [List.filter_eq_nil_iff]
        intro other hother heq
        exact hnodup.1 (List.mem_filterMap.mpr ⟨other, hother, by simpa using heq⟩)
      simp [entriesUnder, hrest]
    · have hsublist := (List.sublist_cons_self resource rest).filterMap ScannedResource.id
      have hne : resource.id ≠ some id := by
        intro heq
        rw [List.filterMap_cons_some heq, List.nodup_cons] at hnodup
        exact hnodup.1 (List.mem_filterMap.mpr ⟨_, hmem, rfl⟩)
      rw [ih (hnodup.sublist hsublist) hmem]
      simp [entriesUnder, hne]

namespace Content

/-- The primary resources of a document, in its order. -/
def primaries (document : Value) : List Value :=
  match primary document with
  | .object members => [.object members]
  | .array items => items
  | _ => []

/-- The id of a resource, if it is a string. -/
def id? (resource : Value) : Option String :=
  textOf (Members.get? (resource.members ["id", "relationships"]) "id")

def relationships (resource : Value) : Members Value :=
  ((Members.get? (resource.members ["id", "relationships"]) "relationships").getD .null).members []

/-- The targets that a relationship names and that no included resource is. -/
def remaining (document relationship : Value) : List Target :=
  (targets (relationshipData relationship)).filter fun target =>
    (included document).all fun resource => identity? resource ≠ some target

def isArray : Value → Bool
  | .array _ => true
  | _ => false

/-- The entry of a relationship, if it has a remaining target. -/
def entryOf? (document : Value) (m : String × Value) : Option Outstanding :=
  (remaining document m.2).head?.map fun target =>
    ⟨m.1, target.1, (remaining document m.2).map Prod.snd, isArray (relationshipData m.2)⟩

/-- The entries of the primary resources with an id. -/
def listed (document : Value) (id : String) : List Outstanding :=
  ((primaries document).filter fun resource => id? resource = some id).flatMap
    fun resource => (Members.byBytes (relationships resource)).filterMap (entryOf? document)

/-- A primary resource with an id has a relationship with remaining targets of several types. -/
def Mixes (document : Value) : Prop :=
  ∃ resource ∈ primaries document, (id? resource).isSome ∧ ∃ m ∈ relationships resource,
    ∃ t ∈ remaining document m.2, ∃ u ∈ remaining document m.2, t.1 ≠ u.1

end Content

variable (members : Members Value)

theorem Scan.primary_ofValue : (Scan.ofValue (.object members)).primary =
    (Content.primaries (.object members)).map ScannedResource.ofValue := by
  show Scan.primaryOf ((Members.get? members "data").getD .null) = _
  rw [Content.primaries, Content.primary]
  show _ = List.map _ (match (Members.get? members "data").getD .null with
    | .object members => [.object members] | .array items => items | _ => [])
  cases (Members.get? members "data").getD .null <;> rfl

theorem isMany_ofData (relationship : Value) : Outstanding.isMany (Linkage.ofData relationship) =
    Content.isArray (relationshipData relationship) := by
  rw [Linkage.ofData]
  cases relationshipData relationship <;> rfl

/-- The scan lists a type and an id that are not empty as included if some value included has
them. -/
theorem mem_targets_ofValue {target : Target} (htype : target.1 ≠ "") (hid : target.2 ≠ "") :
    target ∈ (Scan.ofValue (.object members)).targets ↔
      ∃ item ∈ Content.included (.object members), Content.identity? item = some target := by
  have hitem : ∀ item : Value,
      (Identifier.ofMembers (item.members ["type", "id"])).target? = some target ↔
        Content.identity? item = some target := by
    intro item
    rw [target?_eq_some_iff, Identifier.ofMembers]
    simp only [bind_nonEmpty_eq_some_iff _ htype, bind_nonEmpty_eq_some_iff _ hid,
      get?_members_identifier item (.inl rfl), get?_members_identifier item (.inr rfl)]
    unfold Content.identity?
    split
    · next htext hidText => simp [htext, hidText, Prod.ext_iff]
    · next hnot =>
      constructor
      · rintro ⟨htext, hidText⟩
        exact absurd hidText (hnot _ _ htext)
      · simp
  rw [Scan.targets, Scan.included_ofValue, List.filterMap_map, List.mem_filterMap]
  exact exists_congr fun item => and_congr_right fun _ => hitem item

theorem missing_ofData (relationship : Value) :
    Outstanding.missing (Scan.ofValue (.object members)).targets (Linkage.ofData relationship) =
      Content.remaining (.object members) relationship := by
  rw [Outstanding.missing, Linkage.ofData, Content.targets_ofValue, Content.remaining]
  apply List.filter_congr
  intro target htarget
  obtain ⟨htype, hid⟩ := Content.ne_empty_of_mem_targets htarget
  rw [Bool.eq_iff_iff]
  simp [mem_targets_ofValue members htype hid]

theorem outstanding?_ofData (m : String × Value) :
    Outstanding.outstanding? (Scan.ofValue (.object members)).targets (m.1, Linkage.ofData m.2) =
      Content.entryOf? (.object members) m := by
  rw [Outstanding.outstanding?, Content.entryOf?, missing_ofData, isMany_ofData]

theorem linkagesOf_eq_byBytes {relationships : Value}
    (hnodup : (Members.names (relationships.members [])).Nodup) :
    linkagesOf relationships =
      (Members.byBytes (relationships.members [])).map fun m => (m.1, Linkage.ofData m.2) := by
  rw [← Members.ordered_eq_byBytes hnodup]
  apply (Members.sorted_ordered _).ext ((Members.sorted_ordered _).map _)
  intro name
  rw [Members.get?_ordered, Members.get?_map, Members.get?_map, Members.get?_ordered]

theorem distinct_of_get? {v : Value} (h : v.Distinct) {order : List String} {name : String}
    {w : Value} (hget : Members.get? (v.members order) name = some w) : w.Distinct := by
  cases v with
  | object members => exact ((Value.distinct_object_iff _).mp h).2 _ (Members.mem_of_get?_eq_some hget)
  | array items =>
    exact (Value.distinct_array_iff _).mp h w (List.of_mem_zip (Members.mem_of_get?_eq_some hget)).2
  | _ => simp [Value.members] at hget

theorem distinct_getD {v? : Option Value} (h : ∀ v, v? = some v → v.Distinct) :
    (v?.getD .null).Distinct := by
  cases v? with
  | none => exact .null
  | some v => exact h v rfl

theorem distinct_of_mem_primaries {members : Members Value}
    (h : (Value.object members).Distinct) {resource : Value}
    (hmem : resource ∈ Content.primaries (.object members)) : resource.Distinct := by
  have hprimary : (Content.primary (.object members)).Distinct :=
    distinct_getD fun _ hget => distinct_of_get? h hget
  unfold Content.primaries at hmem
  split at hmem
  · next heq => exact List.mem_singleton.mp hmem ▸ heq ▸ hprimary
  · next heq => exact (Value.distinct_array_iff _).mp (heq ▸ hprimary) resource hmem
  · exact absurd hmem List.not_mem_nil

theorem nodup_names_relationships {resource : Value} (h : resource.Distinct) :
    (Members.names (Content.relationships resource)).Nodup := by
  have hrelationships : ((Members.get? (resource.members ["id", "relationships"])
      "relationships").getD .null).Distinct := distinct_getD fun _ hget => distinct_of_get? h hget
  unfold Content.relationships
  cases heq : (Members.get? (resource.members ["id", "relationships"]) "relationships").getD .null with
  | object named => exact ((Value.distinct_object_iff _).mp (heq ▸ hrelationships)).1
  | _ => simp [Value.members, Members.names]

theorem relationships_ofValue {resource : Value} (h : resource.Distinct) :
    (ScannedResource.ofValue resource).relationships =
      (Members.byBytes (Content.relationships resource)).map
        fun m => (m.1, Linkage.ofData m.2) :=
  linkagesOf_eq_byBytes (nodup_names_relationships h)

theorem not_listable_iff {resource : Value} (h : resource.Distinct) :
    ¬ Listable (Scan.ofValue (.object members)).targets (.ofValue resource) ↔
      (Content.id? resource).isSome ∧ ∃ m ∈ Content.relationships resource,
        ∃ t ∈ Content.remaining (.object members) m.2,
          ∃ u ∈ Content.remaining (.object members) m.2, t.1 ≠ u.1 := by
  rw [Listable, relationships_ofValue h]
  show ¬ ((Content.id? resource).isSome → _) ↔ _
  simp [Outstanding.mixed?_eq_none_iff, missing_ofData, Members.mem_byBytes]

theorem entriesUnder_ofValue {members : Members Value} (h : (Value.object members).Distinct)
    (id : String) :
    entriesUnder (Scan.ofValue (.object members)).targets
        (Scan.ofValue (.object members)).primary id =
      Content.listed (.object members) id := by
  rw [entriesUnder, Scan.primary_ofValue, List.filter_map, List.flatMap_map, Content.listed]
  apply List.flatMap_congr
  intro resource hmem
  have hdistinct := distinct_of_mem_primaries h (List.mem_of_mem_filter hmem)
  rw [relationships_ofValue hdistinct, List.filterMap_map]
  exact List.filterMap_congr fun m _ => outstanding?_ofData members m

theorem listed_eq_nil_iff (document : Value) (id : String) :
    Content.listed document id = [] ↔ ∀ resource ∈ Content.primaries document,
      Content.id? resource = some id → ∀ m ∈ Content.relationships resource,
        Content.remaining document m.2 = [] := by
  simp [Content.listed, Content.entryOf?, List.flatMap_eq_nil_iff, List.filterMap_eq_nil_iff,
    Members.mem_byBytes]

/-- What is outstanding in a document that is scanned. Listing fails if a primary resource with an id
has a relationship whose remaining targets are of several types. Otherwise an id is listed if a
primary resource with this id has a relationship with a remaining target, and under it are the
entries of all such relationships in the order of the resources and of the names. -/
theorem outstanding_lists {body : Bytes} {members : Members Value}
    (hbody : (Json.root body).outline = .object members)
    (hdistinct : (Value.object members).Distinct) (hscan : ∃ s, scan body = .ok s) :
    ((∃ name first second, outstanding body = .error (.mixedTargets name first second)) ↔
        Content.Mixes (.object members)) ∧
      (¬ Content.Mixes (.object members) → ∃ found, outstanding body = .ok found ∧ ∀ id,
        ((∃ entries, found.get? id = some entries) ↔
            ∃ resource ∈ Content.primaries (.object members), Content.id? resource = some id ∧
              ∃ m ∈ Content.relationships resource,
                Content.remaining (.object members) m.2 ≠ []) ∧
          ∀ entries, found.get? id = some entries →
            entries = Content.listed (.object members) id) := by
  obtain ⟨s, hscan⟩ := hscan
  have hs := scan_eq_ofValue_outline hscan
  rw [hbody] at hs
  have hmixes : (∃ resource ∈ s.primary, ¬ Listable s.targets resource) ↔
      Content.Mixes (.object members) := by
    rw [hs, Scan.primary_ofValue]
    simp only [List.mem_map, exists_exists_and_eq_and]
    exact exists_congr fun resource => and_congr_right fun hmem =>
      not_listable_iff members (distinct_of_mem_primaries hdistinct hmem)
  refine ⟨(outstanding_mixes_iff hscan).trans hmixes, fun hunmixed => ?_⟩
  obtain ⟨found, hfound⟩ := (exists_outstandingOfScan_iff s).mpr fun resource hmem => by
    by_contra hnot
    exact hunmixed (hmixes.mp ⟨resource, hmem, hnot⟩)
  refine ⟨found, (outstanding_eq_ok ..).mpr ⟨s, hscan, hfound⟩, fun id => ?_⟩
  obtain ⟨hentries, hne⟩ := get?_outstandingOfScan hfound id
  rw [hs, entriesUnder_ofValue hdistinct] at hentries
  have hlisted : (∃ entries, found.get? id = some entries) ↔
      Content.listed (.object members) id ≠ [] := by
    rw [← hentries]
    cases hget : found.get? id with
    | none => simp
    | some entries =>
      rw [hget] at hne
      simpa using fun h => hne (congrArg some h)
  constructor
  · rw [hlisted, ne_eq, listed_eq_nil_iff]
    simp
  · intro entries hget
    rw [← hentries, hget]
    rfl

/-- Two grants under one id, with what is no identifier among their notes, and a third of mixed
notes whose id is given. -/
def looseGrants (id : Value) : Value :=
  let identifier (type id : String) : Value := .object [("type", .string type), ("id", .string id)]
  let linked (items : List Value) : Value := .object [("data", .array items)]
  .object [
    ("data", .array [
      .object [("id", .string "1"), ("relationships", .object [
        ("é", linked [identifier "note" "9", .null, identifier "note" "", identifier "note" "9"]),
        ("pi", .object [("data", identifier "user" "3")]),
        ("z", .array [identifier "memo" "5"])])],
      .object [("relationships", .object [("a", linked [identifier "memo" "5"])]),
        ("id", .string "1")],
      .object [("id", id),
        ("relationships", .object [("mix", linked [identifier "note" "1", identifier "memo" "1"])])]]),
    ("included", .array [.array [.string "user", .string "3"]])]

theorem plain_looseGrants {id : Value} (h : id.Plain 124) : (looseGrants id).Plain Node.maxDepth := by
  have hnull : Value.null.Plain 121 := .null 121
  simp [looseGrants, Node.maxDepth, h, hnull]

theorem outline_looseGrants {id : Value} (h : id.Plain 124) :
    (Json.root (looseGrants id).toBytes).outline = looseGrants id := by
  apply outline_of_readWith
  rw [Json.readWith_toBytes (plain_looseGrants h), Node.value_tree (plain_looseGrants h)]

theorem scan_looseGrants {id : Value} (h : id.Plain 124) :
    scan (looseGrants id).toBytes = scanLayout.read Node.maxDepth (looseGrants id).tree :=
  Json.readWith_toBytes (plain_looseGrants h) _

theorem outstanding_lists_looseGrants :
    (∃ found, outstanding (looseGrants .null).toBytes = .ok found ∧
      found.get? "1" = some [⟨"z", "memo", ["5"], false⟩, ⟨"é", "note", ["9", "9"], true⟩,
        ⟨"a", "memo", ["5"], true⟩]) ∧
    ∃ name first second,
      outstanding (looseGrants (.string "")).toBytes = .error (.mixedTargets name first second) := by
  have hdistinct : ∀ id : Value, id.Distinct → (looseGrants id).Distinct := by
    intro id hid
    simp [looseGrants, Members.names, hid]
  have hscan : ∀ id : Value, id.Plain 124 →
      (scanLayout.read Node.maxDepth (looseGrants id).tree).toOption.isSome = true →
        ∃ s, scan (looseGrants id).toBytes = .ok s := by
    intro id hid hread
    rw [scan_looseGrants hid]
    exact ⟨_, eq_ok_getD hread ⟨[], []⟩⟩
  obtain ⟨_, hlists⟩ := outstanding_lists (outline_looseGrants (.null 124)) (hdistinct .null .null)
    (hscan .null (.null 124) (by decide +kernel))
  obtain ⟨hmixes, _⟩ := outstanding_lists (outline_looseGrants (.string 124 ""))
    (hdistinct (.string "") (.string ""))
    (hscan (.string "") (.string 124 "") (by decide +kernel))
  refine ⟨?_, hmixes.mpr (by unfold Content.Mixes; decide +kernel)⟩
  obtain ⟨found, hfound, hunder⟩ := hlists (by unfold Content.Mixes; decide +kernel)
  obtain ⟨entries, hentries⟩ := (hunder "1").1.mpr (by decide +kernel)
  have hlisted : Content.listed (looseGrants .null) "1" =
      [⟨"z", "memo", ["5"], false⟩, ⟨"é", "note", ["9", "9"], true⟩, ⟨"a", "memo", ["5"], true⟩] := by
    decide +kernel
  refine ⟨found, hfound, ?_⟩
  rw [hentries, (hunder "1").2 entries hentries]
  exact congrArg some hlisted

end Document

end ResearchRecords
