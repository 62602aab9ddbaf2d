import ResearchRecords.Proofs.Document.Content

/-!
The two readings of a response agree. A document is read through the tree of a value, and the scan
reads the same text in passing: for a primary resource both see the same id and the same linkage,
and for a type and an id that are not empty both see whether such a resource is included.
-/
namespace ResearchRecords.Document

open Json (Value Members Node Layout)
open Results

/-- What a resource is, by the members it was read from. -/
structure Resource.Shows (members : Members Value) (resource : Resource) : Prop where
  type : Members.get? members "type" = some (.string resource.type)
  id : resource.id = textOf (Members.get? members "id")
  attributes : resource.attributes =
    ((Members.get? members "attributes").getD .null).members []
  relationships : resource.relationships =
    (((Members.get? members "relationships").getD .null).members []).map
      fun m => (m.1, Linkage.ofData m.2)

namespace Resource

theorem readType_eq {v : Value} {type : String} (h : readType v = .ok type) : v = .string type := by
  cases v <;> simp_all [readType]

theorem readId_eq {v? : Option Value} {id : Option String}
    (h : readId (v?.getD .null) = .ok id) : id = textOf v? := by
  cases v? with
  | none => simp_all [readId, textOf]
  | some v => cases v <;> simp_all [readId, textOf]

theorem readAttributes_eq {v : Value} {attributes : Members Value}
    (h : readAttributes v = .ok attributes) : attributes = v.members [] := by
  cases v <;> simp_all [readAttributes, Value.members]

theorem ofRelationship_eq {v : Value} {linkage : Linkage}
    (h : Linkage.ofRelationship v = .ok linkage) : linkage = Linkage.ofData v := by
  cases v with
  | object members =>
    obtain rfl := Except.ok.inj h
    unfold Linkage.ofData relationshipData Value.members
    cases Members.get? members "data" <;> rfl
  | array items =>
    match items with
    | [] => exact (Except.ok.inj h).symm
    | [data] => exact (Except.ok.inj h).symm
    | _ :: _ :: _ => simp [Linkage.ofRelationship] at h
  | _ => simp [Linkage.ofRelationship] at h

theorem readRelationships_eq {v : Value} {relationships : Members Linkage}
    (h : readRelationships v = .ok relationships) :
    relationships = (v.members []).map fun m => (m.1, Linkage.ofData m.2) := by
  cases v with
  | null => exact (Except.ok.inj h).symm
  | object members =>
    apply mapM_eq_map h
    intro m _ result hm
    simp only [bind_eq_ok, pure_eq_ok] at hm
    obtain ⟨linkage, hlinkage, rfl⟩ := hm
    rw [ofRelationship_eq hlinkage]
  | _ => simp [readRelationships] at h

/-- An object is a resource if the values under the four names can be read. -/
theorem ofMembers_eq_ok_iff (members : Members Value) (resource : Resource) :
    ofMembers members = .ok resource ↔
      readAttributes ((Members.get? members "attributes").getD .null) = .ok resource.attributes ∧
        readId ((Members.get? members "id").getD .null) = .ok resource.id ∧
        readRelationships ((Members.get? members "relationships").getD .null) =
          .ok resource.relationships ∧
        Members.get? members "type" = some (.string resource.type) := by
  simp only [ofMembers, readMember, bind_eq_ok]
  constructor
  · rintro ⟨attributes, hattributes, id, hid, relationships, hrelationships, h⟩
    split at h
    · exact absurd h (by simp)
    · next type htype =>
      simp only [bind_eq_ok, pure_eq_ok] at h
      obtain ⟨name, hname, rfl⟩ := h
      rw [readType_eq hname] at htype
      exact ⟨hattributes, hid, hrelationships, htype⟩
  · rintro ⟨hattributes, hid, hrelationships, htype⟩
    refine ⟨_, hattributes, _, hid, _, hrelationships, ?_⟩
    rw [htype]
    rfl

theorem shows_of_ofMembers {members : Members Value} {resource : Resource}
    (h : ofMembers members = .ok resource) : resource.Shows members := by
  obtain ⟨hattributes, hid, hrelationships, htype⟩ := (ofMembers_eq_ok_iff ..).mp h
  exact ⟨htype, readId_eq hid, readAttributes_eq hattributes, readRelationships_eq hrelationships⟩

/-- The values of a list are found under the names of the fields. -/
theorem get?_zip_resourceFields (items : List Value) :
    Members.get? (resourceFields.zip items) "type" = items[0]? ∧
      Members.get? (resourceFields.zip items) "id" = items[1]? ∧
      Members.get? (resourceFields.zip items) "attributes" = items[2]? ∧
      Members.get? (resourceFields.zip items) "relationships" = items[3]? := by
  match items with
  | [] => simp
  | [_] => simp [resourceFields, Members.get?_cons]
  | [_, _] => simp [resourceFields, Members.get?_cons]
  | [_, _, _] => simp [resourceFields, Members.get?_cons]
  | _ :: _ :: _ :: _ :: _ => simp [resourceFields, Members.get?_cons]

theorem shows_of_ofItems {items : List Value} {resource : Resource}
    (h : ofItems items = .ok resource) : resource.Shows (resourceFields.zip items) := by
  cases items with
  | nil => simp [ofItems] at h
  | cons type rest =>
    simp only [ofItems, bind_eq_ok, List.getD_eq_getElem?_getD] at h
    obtain ⟨name, hname, id, hid, attributes, hattributes, relationships, hrelationships, h⟩ := h
    obtain ⟨htype, hidField, hattributesField, hrelationshipsField⟩ :=
      get?_zip_resourceFields (type :: rest)
    simp only [List.getElem?_cons_zero, List.getElem?_cons_succ] at *
    rw [← hidField] at hid
    rw [← hattributesField] at hattributes
    rw [← hrelationshipsField] at hrelationships
    obtain rfl := readType_eq hname
    split at h
    · exact absurd h (by simp)
    · obtain rfl := (pure_eq_ok ..).mp h
      exact ⟨htype, readId_eq hid, readAttributes_eq hattributes,
        readRelationships_eq hrelationships⟩

theorem shows_of_ofValue {v : Value} {resource : Resource} (h : ofValue v = .ok resource) :
    resource.Shows (v.members resourceFields) := by
  cases v with
  | object members => exact shows_of_ofMembers h
  | array items => exact shows_of_ofItems h
  | _ => simp [ofValue] at h

end Resource

/-- The type and the id that a resource is included with. -/
def Resource.identity? (resource : Resource) : Option Target :=
  resource.id.map fun id => (resource.type, id)

theorem included?_eq (document : Document) (target : Target) : document.included? target =
    document.included.reverse.find? fun resource => resource.identity? == some target := by
  rw [included?]
  congr 1
  funext resource
  obtain ⟨type, id⟩ := target
  rw [Resource.identity?]
  cases resource.id with
  | none => simp
  | some other =>
    rw [Bool.eq_iff_iff]
    simp

namespace Resource.Shows

variable {v : Value} {resource : Resource}

/-- A resource that was read names the targets that its value names. -/
theorem targets_linkage (h : resource.Shows (v.members resourceFields)) (name : String) :
    (resource.linkage name).targets = Content.targets (Content.linkage v name) := by
  rw [Resource.linkage, h.relationships, Members.get?_map, Content.linkage, Content.relationship?]
  cases Members.get? _ name with
  | none => rfl
  | some relationship => exact Content.targets_ofValue (relationshipData relationship)

theorem identity?_eq (h : resource.Shows (v.members resourceFields)) :
    Content.identity? v = resource.identity? := by
  rw [Content.identity?, Resource.identity?, h.type, h.id]
  cases Members.get? (v.members resourceFields) "id" with
  | none => rfl
  | some id => cases id <;> rfl

theorem attributes_eq (h : resource.Shows (v.members resourceFields)) :
    resource.attributes = Content.attributes v := h.attributes

/-- A scan of a resource sees the same id and the same linkage. -/
theorem scanned_eq {members : Members Value}
    (h : resource.Shows ((Value.object members).canonical.members resourceFields)) :
    ScannedResource.ofValue (.object members) = ⟨resource.id, resource.relationships⟩ := by
  have hget : ∀ name, Members.get? ((Value.object members).canonical.members resourceFields) name =
      (Members.get? members name).map Value.canonical :=
    Value.get?_members_canonical resourceFields (.object members)
  have hid : textOf (Members.get? members "id") = resource.id := by
    rw [h.id, hget, textOf_canonical]
  have hrelationships : linkagesOf ((Members.get? members "relationships").getD .null) =
      resource.relationships := by
    rw [h.relationships, hget, getD_map_canonical, ← linkagesOf_canonical]
    exact ((Value.sorted_members_canonical _).map _).ordered_eq
  exact congrArg₂ ScannedResource.mk hid hrelationships

end Resource.Shows

theorem find?_of_forall₂ {α β : Type} {R : α → β → Prop} {p : α → Bool} {q : β → Bool}
    (hpq : ∀ a b, R a b → p a = q b) {xs : List α} {ys : List β} (h : List.Forall₂ R xs ys) :
    Option.Rel R (xs.find? p) (ys.find? q) := by
  induction h with
  | nil => exact .none
  | @cons a b xs ys hab _ ih =>
    rw [List.find?_cons, List.find?_cons, hpq a b hab]
    cases q b with
    | true => exact .some hab
    | false => exact ih

theorem isSome_eq_of_rel {α β : Type} {R : α → β → Prop} {a? : Option α} {b? : Option β}
    (h : Option.Rel R a? b?) : a?.isSome = b?.isSome := by
  cases h <;> rfl

/-- Primary data is nothing, or the resources of a list, or else one resource. -/
theorem Primary.ofValue_cases {v : Value} {primary : Primary}
    (h : Primary.ofValue v = .ok primary) :
    v = .null ∧ primary = .empty ∨
      (∃ items resources, v = .array items ∧ primary = .many resources ∧
        items.mapM Resource.ofValue = .ok resources) ∨
      ∃ resource, primary = .one resource ∧ Resource.ofValue v = .ok resource := by
  unfold Primary.ofValue at h
  split at h
  · next items =>
    dsimp only at h
    cases hmany : items.mapM Resource.ofValue with
    | ok resources =>
      rw [hmany] at h
      exact .inr (.inl ⟨items, resources, rfl, (Except.ok.inj h).symm, hmany⟩)
    | error fault =>
      simp only [hmany, Except.toOption] at h
      split at h
      · next hone => exact .inr (.inr ⟨_, (Except.ok.inj h).symm, hone⟩)
      · simp at h
  · dsimp only at h
    split at h
    · exact .inl ⟨rfl, (Except.ok.inj h).symm⟩
    · next hnone _ => simp at hnone
    · split at h
      · next hone => exact .inr (.inr ⟨_, (Except.ok.inj h).symm, hone⟩)
      · simp at h

/-- Primary data that was read as one resource is a resource. -/
theorem Primary.ofValue_eq_one {v : Value} {resource : Resource}
    (h : Primary.ofValue v = .ok (.one resource)) : Resource.ofValue v = .ok resource := by
  rcases Primary.ofValue_cases h with ⟨_, heq⟩ | ⟨_, _, _, heq, _⟩ | ⟨_, heq, hone⟩
  · cases heq
  · cases heq
  · exact Primary.one.inj heq ▸ hone

/-- A document and the canonical value it was read from. -/
structure Mirrors (document : Document) (value : Value) : Prop where
  object : ∃ members, value = .object members
  primary : Primary.ofValue (Content.primary value) = .ok document.primary
  included : List.Forall₂ (fun v resource => Resource.ofValue v = .ok resource)
    (Content.included value) document.included

theorem mirrors_of_ofValue {value : Value} {document : Document}
    (h : ofValue value = .ok document) : Mirrors document value := by
  cases value with
  | object members =>
    simp only [ofValue, ofJson, mapError_eq_ok, bind_eq_ok, pure_eq_ok, Resource.readMember] at h
    obtain ⟨primary, hprimary, included, hincluded, rfl⟩ := h
    refine ⟨⟨members, rfl⟩, hprimary, ?_⟩
    unfold Content.included Value.members
    cases hfield : Members.get? members "included" with
    | none =>
      rw [hfield] at hincluded
      obtain rfl := Except.ok.inj hincluded
      exact .nil
    | some v =>
      rw [hfield] at hincluded
      cases v with
      | null =>
        obtain rfl := Except.ok.inj hincluded
        exact .nil
      | array items => exact (mapM_eq_ok_iff ..).mp hincluded
      | _ => simp [readIncluded] at hincluded
  | _ => simp [ofValue] at h

theorem mirrors_of_parse {body : Bytes} {document : Document} (h : parse body = .ok document) :
    ∃ value, Json.parse body = .ok value ∧ Mirrors document value := by
  simp only [parse, ofJson, bind_eq_ok, mapError_eq_ok] at h
  obtain ⟨value, hvalue, hdocument⟩ := h
  exact ⟨value, hvalue, mirrors_of_ofValue hdocument⟩

namespace Mirrors

variable {document : Document} {value : Value}

theorem shows_primary (h : Mirrors document value) {resource : Resource}
    (hprimary : document.primary = .one resource) :
    resource.Shows ((Content.primary value).members resourceFields) := by
  have hread := h.primary
  rw [hprimary] at hread
  exact Resource.shows_of_ofValue (Primary.ofValue_eq_one hread)

/-- The last resource included with a type and an id is read from the last such value. -/
theorem included?_rel (h : Mirrors document value) (target : Target) :
    Option.Rel (fun v resource => Resource.ofValue v = .ok resource)
      (Content.included? value target) (document.included? target) := by
  rw [included?_eq]
  apply find?_of_forall₂ _ (List.rel_reverse h.included)
  intro v resource hresource
  rw [(Resource.shows_of_ofValue hresource).identity?_eq]

theorem isSome_included? (h : Mirrors document value) (target : Target) :
    (document.included? target).isSome = (Content.included? value target).isSome :=
  (isSome_eq_of_rel (h.included?_rel target)).symm

end Mirrors

/-- Primary data that reads as one resource and can be scanned is an object. -/
theorem exists_object_of_scan {body : Bytes} {members : Members Value}
    (hv : Json.readWith (Node.value Node.maxDepth) body = .ok (.object members)) {s : Scan}
    (hs : scan body = .ok s) {resource : Resource}
    (hprimary : Resource.ofValue ((Members.get? members "data").getD .null).canonical =
      .ok resource) : ∃ data, Members.get? members "data" = some (.object data) := by
  cases hdata : Members.get? members "data" with
  | none =>
    rw [hdata] at hprimary
    simp [Resource.ofValue, Value.canonical] at hprimary
  | some data =>
    rw [hdata] at hprimary
    cases data with
    | object data => exact ⟨data, rfl⟩
    | array items =>
      -- A list is a resource only if its first item is a string, which the scan refuses.
      obtain ⟨room, node, primary, hnode, hread⟩ := exists_scanPrimary_of_scan hv hs hdata
      have haccepts := accepts_of_scanPrimary hnode hread
      have htype := (Resource.shows_of_ofValue hprimary).type
      cases items with
      | nil =>
        rw [Option.getD_some, Value.canonical_array] at htype
        simp [Value.members] at htype
      | cons first rest =>
        rw [Option.getD_some, Value.canonical_array, Value.members] at htype
        rw [(Resource.get?_zip_resourceFields _).1] at htype
        have hfirst : first.canonical = .string resource.type := by simpa using htype
        rcases haccepts first (List.mem_cons_self ..) with ⟨inner, rfl⟩ | ⟨inner, rfl, _⟩
        · rw [Value.canonical_object] at hfirst
          cases hfirst
        · rw [Value.canonical_array] at hfirst
          cases hfirst
    | _ => simp [Resource.ofValue, Value.canonical] at hprimary

/-- The values under type and id are the same for a resource and for an identifier. -/
theorem get?_members_identifier (v : Value) {name : String} (hname : name = "type" ∨ name = "id") :
    Members.get? (v.members ["type", "id"]) name =
      Members.get? (v.members resourceFields) name := by
  cases v with
  | array items =>
    obtain ⟨htype, hid, _⟩ := Resource.get?_zip_resourceFields items
    have hfields : Members.get? (["type", "id"].zip items) "type" = items[0]? ∧
        Members.get? (["type", "id"].zip items) "id" = items[1]? := by
      match items with
      | [] => simp
      | [_] => simp [Members.get?_cons]
      | _ :: _ :: _ => simp [Members.get?_cons]
    rcases hname with rfl | rfl
    · exact hfields.1.trans htype.symm
    · exact hfields.2.trans hid.symm
  | _ => rfl

theorem target?_eq_some_iff (identifier : Identifier) (target : Target) :
    identifier.target? = some target ↔
      identifier.type = some target.1 ∧ identifier.id = some target.2 := by
  obtain ⟨type?, id?⟩ := identifier
  cases type? <;> cases id? <;> simp [Identifier.target?, Prod.ext_iff]

theorem bind_nonEmpty_eq_some_iff (v? : Option Value) {s : String} (hs : s ≠ "") :
    (v? >>= nonEmpty) = some s ↔ v? = some (.string s) := by
  cases v? with
  | none => simp
  | some v =>
    cases v with
    | string text =>
      by_cases htext : text = ""
      · subst htext
        simp [nonEmpty, hs.symm]
      · simp [nonEmpty, htext]
    | _ => simp [nonEmpty]

theorem textOf_eq_some_iff (v? : Option Value) (s : String) :
    textOf v? = some s ↔ v? = some (.string s) := by
  cases v? with
  | none => simp [textOf]
  | some v => cases v <;> simp [textOf]

/-- For a type and an id that are not empty, the scan takes what is read as such a resource. -/
theorem target?_scanned_iff {v : Value} {resource : Resource}
    (h : Resource.ofValue v.canonical = .ok resource) {target : Target} (htype : target.1 ≠ "")
    (hid : target.2 ≠ "") :
    (Identifier.ofMembers (v.members ["type", "id"])).target? = some target ↔
      resource.type = target.1 ∧ resource.id = some target.2 := by
  have hshows := Resource.shows_of_ofValue h
  have hcongr : Identifier.ofMembers (v.members ["type", "id"]) =
      Identifier.ofMembers (v.canonical.members resourceFields) := by
    simp only [Identifier.ofMembers, get?_members_identifier v (.inl rfl),
      get?_members_identifier v (.inr rfl), Value.get?_members_canonical]
    cases Members.get? (v.members resourceFields) "type" <;>
      cases Members.get? (v.members resourceFields) "id" <;> simp
  rw [hcongr, target?_eq_some_iff, Identifier.ofMembers]
  simp only [bind_nonEmpty_eq_some_iff _ htype, bind_nonEmpty_eq_some_iff _ hid]
  rw [hshows.type, hshows.id, textOf_eq_some_iff]
  simp

theorem isSome_included?_iff (document : Document) (target : Target) :
    (document.included? target).isSome ↔
      ∃ resource ∈ document.included, resource.type = target.1 ∧ resource.id = some target.2 := by
  simp [included?, List.find?_isSome]

theorem Content.included_canonical (members : Members Value) :
    Content.included (Value.object members).canonical =
      (Content.included (.object members)).map Value.canonical := by
  unfold Content.included
  rw [Value.get?_members_canonical]
  cases Members.get? ((Value.object members).members []) "included" with
  | none => rfl
  | some v =>
    cases v with
    | array items => rw [Option.map_some, Value.canonical_array]
    | _ => rfl

theorem Scan.included_ofValue (members : Members Value) :
    (Scan.ofValue (.object members)).included =
      (Content.included (.object members)).map
        fun item => Identifier.ofMembers (item.members ["type", "id"]) := by
  simp only [Scan.ofValue, Content.included, Value.members]
  cases Members.get? members "included" with
  | none => rfl
  | some v => cases v <;> rfl

theorem exists_members_of_parse {body : Bytes} {document : Document}
    (h : parse body = .ok document) :
    ∃ members, Json.readWith (Node.value Node.maxDepth) body = .ok (.object members) ∧
      Mirrors document (Value.object members).canonical := by
  obtain ⟨value, hvalue, hmirrors⟩ := mirrors_of_parse h
  simp only [Json.parse, bind_eq_ok, pure_eq_ok] at hvalue
  obtain ⟨raw, hraw, rfl⟩ := hvalue
  obtain ⟨canonical, hcanonical⟩ := hmirrors.object
  cases raw with
  | object members => exact ⟨members, hraw, hmirrors⟩
  | array items => simp [Value.canonical_array] at hcanonical
  | _ => simp [Value.canonical] at hcanonical

/-- The scan lists a type and an id as included if the document includes such a resource. -/
theorem mem_scanned_iff {body : Bytes} {document : Document} (hparse : parse body = .ok document)
    {s : Scan} (hs : scan body = .ok s) {target : Target} (htype : target.1 ≠ "")
    (hid : target.2 ≠ "") : target ∈ s.included.filterMap Identifier.target? ↔
      (document.included? target).isSome := by
  obtain ⟨members, hraw, hmirrors⟩ := exists_members_of_parse hparse
  obtain rfl := scan_eq hraw hs
  have hincluded := hmirrors.included
  rw [Content.included_canonical, List.forall₂_map_left_iff] at hincluded
  rw [isSome_included?_iff, Scan.included_ofValue, List.filterMap_map, List.mem_filterMap]
  constructor
  · rintro ⟨item, hitem, htarget⟩
    obtain ⟨resource, hmem, hresource⟩ := exists_mem_of_forall₂ hincluded hitem
    exact ⟨resource, hmem, (target?_scanned_iff hresource htype hid).mp htarget⟩
  · rintro ⟨resource, hmem, hidentity⟩
    obtain ⟨item, hitem, hresource⟩ := exists_mem_of_forall₂ hincluded.flip hmem
    exact ⟨item, hitem, (target?_scanned_iff hresource htype hid).mpr hidentity⟩

/-- The two readings of a response of one resource: the scan sees the id and the linkage of the
resource, which are in order, and lists a type and an id as included if the document includes such
a resource. -/
theorem scan_agrees {body : Bytes} {document : Document} (hparse : parse body = .ok document)
    {resource : Resource} (hprimary : document.primary = .one resource) {s : Scan}
    (hs : scan body = .ok s) :
    s.primary = [⟨resource.id, resource.relationships⟩] ∧
      Members.Sorted resource.relationships ∧
      ∀ target : Target, target.1 ≠ "" → target.2 ≠ "" →
        (target ∈ s.included.filterMap Identifier.target? ↔
          (document.included? target).isSome) := by
  obtain ⟨members, hraw, hmirrors⟩ := exists_members_of_parse hparse
  have hread := hmirrors.primary
  rw [hprimary] at hread
  replace hread := Primary.ofValue_eq_one hread
  rw [Content.primary, Value.get?_members_canonical, getD_map_canonical] at hread
  obtain ⟨data, hdata⟩ := exists_object_of_scan hraw hs hread
  have hfield : Members.get? ((Value.object members).members []) "data" = some (.object data) :=
    hdata
  rw [hfield] at hread
  have hscanned := (Resource.shows_of_ofValue hread).scanned_eq
  refine ⟨?_, ?_, fun _ htype hid => mem_scanned_iff hparse hs htype hid⟩
  · rw [scan_eq hraw hs]
    show Scan.primaryOf ((Members.get? members "data").getD .null) = _
    rw [hdata, ← hscanned]
    rfl
  · have hrelationships : linkagesOf _ = resource.relationships :=
      congrArg ScannedResource.relationships hscanned
    exact hrelationships ▸ Members.sorted_ordered _

end ResearchRecords.Document
